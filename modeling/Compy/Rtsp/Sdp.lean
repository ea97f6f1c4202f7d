import Compy.Rtsp.Serialize

/-!
# SDP lines

`types/sdp.c`: a line from its value, and a line from a format.  The format goes to a
third method of the writer, which takes its arguments as a `va_list`.
-/

set_option autoImplicit false

namespace Compy.Rtsp

structure SdpWriter (W : Type) extends Writer W where
  vwritef : List UInt8 → Call W

variable {W : Type}

structure SdpLine where
  ty : UInt8
  value : List UInt8
  deriving DecidableEq, Repr

def SdpLine.serialize (w : Writer W) (self : SdpLine) : Call W :=
  writeSlices w [[self.ty], charSlice "=", self.value, crlf]

/-- The last argument is the text that the format and its arguments make. -/
def sdpPrintf (w : SdpWriter W) (ty : UInt8) (formatted : List UInt8) : Call W :=
  chkWriteErr [w.writef (ty :: charSlice "="), w.vwritef formatted, w.write crlf] 0

def SdpLine.bytes (self : SdpLine) : List UInt8 := self.ty :: charSlice "=" ++ self.value ++ crlf

structure SdpWriter.NeverFails (w : SdpWriter W) (written : W → List UInt8) : Prop
    extends w.toWriter.NeverFails written where
  vwritef_ret : ∀ data self, (w.vwritef data self).1 = data.length
  vwritef_adds : ∀ data self, written (w.vwritef data self).2 = written self ++ data

theorem writes_sdpPrintf {w : SdpWriter W} {written : W → List UInt8}
    (never : w.NeverFails written) (line : SdpLine) :
    Writes written (sdpPrintf w line.ty line.value) line.bytes := by
  have calls := never.toNeverFails
  have chunks : [line.ty :: charSlice "=", line.value, crlf].flatten = line.bytes := by
    simp only [SdpLine.bytes, List.flatten_cons, List.flatten_nil, List.append_nil,
      List.append_assoc, List.cons_append]
  rw [← chunks]
  exact writes_chkWriteErr _ _ (.cons (writes_writef calls _) (.cons
    (fun self => ⟨never.vwritef_ret _ self, never.vwritef_adds _ self⟩)
    (.cons (writes_write calls crlf) .nil)))

/-- `COMPY_SDP_DESCRIBE` adds up what the lines return, up to one that fails. -/
def sdpDescribe (w : SdpWriter W) : List SdpLine → Call W
  | [], self => (0, self)
  | line :: lines, self =>
      let (ret, self) := sdpPrintf w line.ty line.value self
      if ret < 0 then (0, self)
      else
        let (rest, self) := sdpDescribe w lines self
        (ret + rest, self)

theorem writes_sdpDescribe {w : SdpWriter W} {written : W → List UInt8}
    (never : w.NeverFails written) (lines : List SdpLine) :
    Writes written (sdpDescribe w lines) (lines.flatMap SdpLine.bytes) := by
  induction lines with
  | nil => exact fun self => ⟨rfl, (List.append_nil _).symm⟩
  | cons line lines ih =>
      intro self
      obtain ⟨ret, adds⟩ := writes_sdpPrintf never line self
      simp only [sdpDescribe]
      generalize sdpPrintf w line.ty line.value self = printed at ret adds ⊢
      obtain ⟨count, next⟩ := printed
      dsimp only at ret adds ⊢
      obtain ⟨rest, later⟩ := ih next
      rw [if_neg (by omega : ¬ count < 0)]
      dsimp only
      refine ⟨?_, ?_⟩
      · rw [ret, rest, List.flatMap_cons, List.length_append, Nat.cast_add]
      · rw [later, adds, List.flatMap_cons, List.append_assoc]

/-- The text up to the NUL of the buffer; no text that is printed has one of its own. -/
def stringWriter : SdpWriter (List UInt8) where
  write data self := (data.length, self ++ data)
  writef text self := (text.length, self ++ text)
  vwritef text self := (text.length, self ++ text)

theorem stringWriter_neverFails : stringWriter.NeverFails id where
  write_ret _ _ := rfl
  write_adds _ _ := rfl
  writef_ret _ _ := rfl
  writef_adds _ _ := rfl
  vwritef_ret _ _ := rfl
  vwritef_adds _ _ := rfl

theorem sdpDescribe_string (lines : List SdpLine) : sdpDescribe stringWriter lines [] =
    (((lines.flatMap SdpLine.bytes).length : Int), lines.flatMap SdpLine.bytes) := by
  obtain ⟨ret, text⟩ := writes_sdpDescribe stringWriter_neverFails lines []
  exact Prod.ext ret text

end Compy.Rtsp
