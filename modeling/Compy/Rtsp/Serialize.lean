import Mathlib.Data.List.Forall2
import Compy.Rtsp.Message

/-!
# Serialising

`Compy_Writer` and the serialisers on top of it.  A call to a writer gives the
number of bytes written, negative on an error, and the writer afterwards; a
formatted write is given the formatted text.
-/

set_option autoImplicit false

namespace Compy.Rtsp

abbrev Call (W : Type) := W → Int × W

structure Writer (W : Type) where
  write : List UInt8 → Call W
  writef : List UInt8 → Call W

variable {W : Type}

/-- `CHK_WRITE_ERR` around each of the calls; what an error leaves is the result
so far. -/
def chkWriteErr : List (Call W) → Int → Call W
  | [], result, self => (result, self)
  | call :: calls, result, self =>
      let (ret, self) := call self
      if ret < 0 then (result, self) else chkWriteErr calls (result + ret) self

def writeSlices (w : Writer W) (data : List (List UInt8)) : Call W :=
  chkWriteErr (data.map w.write) 0

def Header.serialize (w : Writer W) (self : Header) : Call W :=
  writeSlices w [self.key, charSlice ": ", self.value, crlf]

def HeaderMap.serialize (w : Writer W) (self : HeaderMap) : Call W :=
  chkWriteErr (self.headers.map (Header.serialize w) ++ [w.write crlf]) 0

def RtspVersion.serialize (w : Writer W) (self : RtspVersion) : Call W :=
  w.writef (rtspSlash ++ decimal self.major.toNat ++ charSlice "." ++ decimal self.minor.toNat)

def RequestLine.serialize (w : Writer W) (self : RequestLine) : Call W :=
  chkWriteErr [w.write self.method, w.write (charSlice " "), w.write self.uri,
    w.write (charSlice " "), self.version.serialize w, w.write crlf] 0

def StatusCode.serialize (w : Writer W) (self : UInt16) : Call W := w.writef (decimal self.toNat)

def ResponseLine.serialize (w : Writer W) (self : ResponseLine) : Call W :=
  chkWriteErr [self.version.serialize w, w.write (charSlice " "), StatusCode.serialize w self.code,
    w.write (charSlice " "), w.write self.reason, w.write crlf] 0

namespace Message

variable {Line : Type}

/-- The headers that the serialiser writes in front of the map. -/
def addedHeaders (self : Message Line) : List Header :=
  (if self.headerMap.containsKey headerCSeq then []
    else [{ key := headerCSeq, value := decimal self.cseq.toNat }]) ++
  (if self.headerMap.containsKey headerContentLength || self.body.isEmpty then []
    else [{ key := headerContentLength, value := decimalSize (UInt64.ofNat self.body.length) }])

def serialize (serializeLine : Line → Call W) (w : Writer W) (self : Message Line) : Call W :=
  chkWriteErr ([serializeLine self.startLine] ++ self.addedHeaders.map (Header.serialize w) ++
    [self.headerMap.serialize w] ++ (if self.body.isEmpty then [] else [w.write self.body])) 0

end Message

def Request.serialize (w : Writer W) (self : Request) : Call W :=
  Message.serialize (RequestLine.serialize w) w self

def Response.serialize (w : Writer W) (self : Response) : Call W :=
  Message.serialize (ResponseLine.serialize w) w self

/-! ## Writers that never fail -/

/-- The calls of a writer that always takes the whole of its argument; `written` is what
it has taken so far. -/
structure Writer.NeverFails (w : Writer W) (written : W → List UInt8) : Prop where
  write_ret : ∀ data self, (w.write data self).1 = data.length
  write_adds : ∀ data self, written (w.write data self).2 = written self ++ data
  writef_ret : ∀ data self, (w.writef data self).1 = data.length
  writef_adds : ∀ data self, written (w.writef data self).2 = written self ++ data

/-- The call writes `bytes` and returns their number. -/
def Writes (written : W → List UInt8) (call : Call W) (bytes : List UInt8) : Prop :=
  ∀ self, (call self).1 = bytes.length ∧ written (call self).2 = written self ++ bytes

variable {written : W → List UInt8}

theorem writes_chkWriteErr_from (calls : List (Call W)) (chunks : List (List UInt8))
    (each : List.Forall₂ (Writes written) calls chunks) (result : Int) (self : W) :
    (chkWriteErr calls result self).1 = result + chunks.flatten.length ∧
      written (chkWriteErr calls result self).2 = written self ++ chunks.flatten := by
  induction each generalizing result self with
  | nil => exact ⟨(Int.add_zero result).symm, (List.append_nil _).symm⟩
  | cons first _ ih =>
      obtain ⟨returned, added⟩ := first self
      rw [chkWriteErr]
      dsimp only
      rw [returned, if_neg (Int.not_lt.mpr (Int.natCast_nonneg _))]
      obtain ⟨total, all⟩ := ih (result + _) _
      rw [total, all, added, List.flatten_cons, List.length_append, List.append_assoc]
      exact ⟨by push_cast; ring, rfl⟩

theorem writes_chkWriteErr (calls : List (Call W)) (chunks : List (List UInt8))
    (each : List.Forall₂ (Writes written) calls chunks) :
    Writes written (chkWriteErr calls 0) chunks.flatten := by
  intro self
  obtain ⟨total, all⟩ := writes_chkWriteErr_from calls chunks each 0 self
  exact ⟨by rw [total, Int.zero_add], all⟩

/-! ## The bytes of a message -/

def Header.bytes (self : Header) : List UInt8 :=
  self.key ++ charSlice ": " ++ self.value ++ crlf

def headerBytes (headers : List Header) : List UInt8 := (headers.map Header.bytes).flatten

def RtspVersion.bytes (self : RtspVersion) : List UInt8 :=
  rtspSlash ++ decimal self.major.toNat ++ charSlice "." ++ decimal self.minor.toNat

def RequestLine.bytes (self : RequestLine) : List UInt8 :=
  self.method ++ charSlice " " ++ self.uri ++ charSlice " " ++ self.version.bytes ++ crlf

def ResponseLine.bytes (self : ResponseLine) : List UInt8 :=
  self.version.bytes ++ charSlice " " ++ decimal self.code.toNat ++ charSlice " " ++ self.reason ++
    crlf

def Message.bytes {Line : Type} (lineBytes : Line → List UInt8) (self : Message Line) :
    List UInt8 :=
  lineBytes self.startLine ++ headerBytes (self.addedHeaders ++ self.headerMap.headers) ++ crlf ++
    self.body

theorem headerBytes_append (front back : List Header) :
    headerBytes (front ++ back) = headerBytes front ++ headerBytes back := by
  rw [headerBytes, List.map_append, List.flatten_append]
  rfl

section

variable {w : Writer W} (never : w.NeverFails written)

include never

theorem writes_write (data : List UInt8) : Writes written (w.write data) data :=
  fun self => ⟨never.write_ret data self, never.write_adds data self⟩

theorem writes_writef (data : List UInt8) : Writes written (w.writef data) data :=
  fun self => ⟨never.writef_ret data self, never.writef_adds data self⟩

theorem writes_writeSlices (data : List (List UInt8)) :
    Writes written (writeSlices w data) data.flatten := by
  refine writes_chkWriteErr _ data ?_
  rw [List.forall₂_map_left_iff, List.forall₂_same]
  exact fun chunk _ => writes_write never chunk

theorem writes_header (header : Header) : Writes written (header.serialize w) header.bytes := by
  have chunks : [header.key, charSlice ": ", header.value, crlf].flatten = header.bytes := by
    simp only [Header.bytes, List.flatten_cons, List.flatten_nil, List.append_nil,
      List.append_assoc]
  rw [← chunks]
  exact writes_writeSlices never _

theorem writes_headers (headers : List Header) :
    List.Forall₂ (Writes written) (headers.map (Header.serialize w))
      (headers.map Header.bytes) := by
  rw [List.forall₂_map_left_iff, List.forall₂_map_right_iff, List.forall₂_same]
  exact fun header _ => writes_header never header

theorem writes_headerMap (headerMap : HeaderMap) :
    Writes written (headerMap.serialize w) (headerBytes headerMap.headers ++ crlf) := by
  have chunks : (headerMap.headers.map Header.bytes ++ [crlf]).flatten =
      headerBytes headerMap.headers ++ crlf := by
    rw [List.flatten_append, List.flatten_singleton, headerBytes]
  rw [← chunks]
  exact writes_chkWriteErr _ _ (List.rel_append (writes_headers never headerMap.headers)
    (.cons (writes_write never crlf) .nil))

theorem writes_requestLine (line : RequestLine) :
    Writes written (line.serialize w) line.bytes := by
  have chunks : [line.method, charSlice " ", line.uri, charSlice " ", line.version.bytes,
      crlf].flatten = line.bytes := by
    simp only [RequestLine.bytes, List.flatten_cons, List.flatten_nil, List.append_nil,
      List.append_assoc]
  rw [← chunks]
  refine writes_chkWriteErr _ _ (.cons (writes_write never line.method) ?_)
  refine .cons (writes_write never (charSlice " ")) (.cons (writes_write never line.uri) ?_)
  refine .cons (writes_write never (charSlice " ")) ?_
  exact .cons (writes_writef never line.version.bytes) (.cons (writes_write never crlf) .nil)

theorem writes_responseLine (line : ResponseLine) :
    Writes written (line.serialize w) line.bytes := by
  have chunks : [line.version.bytes, charSlice " ", decimal line.code.toNat, charSlice " ",
      line.reason, crlf].flatten = line.bytes := by
    simp only [ResponseLine.bytes, List.flatten_cons, List.flatten_nil, List.append_nil,
      List.append_assoc]
  rw [← chunks]
  refine writes_chkWriteErr _ _ (.cons (writes_writef never line.version.bytes) ?_)
  refine .cons (writes_write never (charSlice " ")) ?_
  refine .cons (writes_writef never (decimal line.code.toNat)) ?_
  refine .cons (writes_write never (charSlice " ")) (.cons (writes_write never line.reason) ?_)
  exact .cons (writes_write never crlf) .nil

theorem writes_message {Line : Type} {serializeLine : Line → Call W}
    {lineBytes : Line → List UInt8}
    (line : ∀ startLine, Writes written (serializeLine startLine) (lineBytes startLine))
    (message : Message Line) :
    Writes written (message.serialize serializeLine w) (message.bytes lineBytes) := by
  have body : List.Forall₂ (Writes written)
      (if message.body.isEmpty then [] else [w.write message.body])
      (if message.body.isEmpty then [] else [message.body]) := by
    split
    · exact .nil
    · exact .cons (writes_write never message.body) .nil
  have bodyBytes : (if message.body.isEmpty then [] else [message.body]).flatten =
      message.body := by
    split
    · rename_i empty
      rw [List.isEmpty_iff.mp empty, List.flatten_nil]
    · exact List.flatten_singleton
  have chunks : ([lineBytes message.startLine] ++ message.addedHeaders.map Header.bytes ++
      [headerBytes message.headerMap.headers ++ crlf] ++
      (if message.body.isEmpty then [] else [message.body])).flatten =
        message.bytes lineBytes := by
    rw [List.flatten_append, bodyBytes, Message.bytes, headerBytes_append]
    simp only [headerBytes, List.flatten_append, List.flatten_singleton, List.append_assoc]
  rw [← chunks]
  exact writes_chkWriteErr _ _ (List.rel_append (List.rel_append (List.rel_append
    (.cons (line message.startLine) .nil) (writes_headers never message.addedHeaders))
    (.cons (writes_headerMap never message.headerMap) .nil)) body)

end

end Compy.Rtsp
