import Compy.Rtsp.Scan

/-!
# The parts of a message

The types under `types/` and their parsers: the start lines with what they are
made of, a header, and the map of at most 32 of them.
-/

set_option autoImplicit false

namespace Compy.Rtsp

open IncrementalParsing

def Parser.orFail {α : Type} (error : ParseError) : Option α → Parser α
  | some value => pure value
  | none => Parser.fail error

/-- `CharSlice99_from_ptrdiff(ptr, input.ptr - strlen("\r\n"))`. -/
def withoutCrlf (line : List UInt8) : List UInt8 := line.take (line.length - crlf.length)

def Method.parse : Parser (List UInt8) := do
  let _ ← matchWhitespaces
  matchIdent

def RequestUri.parse : Parser (List UInt8) := do
  let _ ← matchWhitespaces
  matchNonWhitespaces

structure RtspVersion where
  major : UInt8
  minor : UInt8
  deriving DecidableEq, Repr

def rtspSlash : List UInt8 := charSlice "RTSP/"

def RtspVersion.parse : Parser RtspVersion := do
  let _ ← matchWhitespaces
  let _ ← matchStr rtspSlash
  let major ← matchNumeric
  let _ ← matchChar '.'.toUInt8
  let minor ← matchNumeric
  let majorInt ← Parser.orFail (.TypeMismatch .Int major) (scanU8 major)
  let minorInt ← Parser.orFail (.TypeMismatch .Int minor) (scanU8 minor)
  pure { major := majorInt, minor := minorInt }

structure RequestLine where
  method : List UInt8
  uri : List UInt8
  version : RtspVersion
  deriving DecidableEq, Repr

def RequestLine.parse : Parser RequestLine := do
  let method ← Method.parse
  let uri ← RequestUri.parse
  let version ← RtspVersion.parse
  let _ ← matchStr crlf
  pure { method := method, uri := uri, version := version }

def StatusCode.parse : Parser UInt16 := do
  let _ ← matchWhitespaces
  let code ← matchNumeric
  Parser.orFail (.TypeMismatch .Int code) (scanU16 code)

def ReasonPhrase.parse : Parser (List UInt8) := do
  let _ ← matchWhitespaces
  let phrase ← matchUntilCrlf
  pure (withoutCrlf phrase)

structure ResponseLine where
  version : RtspVersion
  code : UInt16
  reason : List UInt8
  deriving DecidableEq, Repr

def ResponseLine.parse : Parser ResponseLine := do
  let version ← RtspVersion.parse
  let code ← StatusCode.parse
  let reason ← ReasonPhrase.parse
  pure { version := version, code := code, reason := reason }

structure Header where
  key : List UInt8
  value : List UInt8
  deriving DecidableEq, Repr

def headerContentLength : List UInt8 := charSlice "Content-Length"

def headerCSeq : List UInt8 := charSlice "CSeq"

def Header.parse : Parser Header := do
  let _ ← matchWhitespaces
  let key ← matchHeaderName
  let _ ← matchWhitespaces
  let _ ← matchChar ':'.toUInt8
  let _ ← matchWhitespaces
  let value ← matchUntilCrlf
  pure { key := key, value := withoutCrlf value }

def headerMapCapacity : Nat := 32

/-- The `len` first places of the array; the others are never read. -/
structure HeaderMap where
  headers : List Header
  bounded : headers.length ≤ headerMapCapacity
  deriving DecidableEq

namespace HeaderMap

def empty : HeaderMap := ⟨[], Nat.zero_le _⟩

def find (self : HeaderMap) (key : List UInt8) : Option (List UInt8) :=
  (self.headers.find? fun header => header.key == key).map Header.value

def containsKey (self : HeaderMap) (key : List UInt8) : Bool := (self.find key).isSome

/-- The assertion that the map is not full is the argument `room`. -/
def append (self : HeaderMap) (h : Header) (room : self.headers.length < headerMapCapacity) :
    HeaderMap where
  headers := self.headers ++ [h]
  bounded := by
    rw [List.length_append, List.length_singleton]
    exact room

/-- The two looks at the input that a turn of the loop begins with. -/
def atEnd (self : HeaderMap) (otherwise : Parser HeaderMap) : Parser HeaderMap :=
  fun past input =>
    if input.getLast? = some '\r'.toUInt8 then .Partial
    else if crlf <+: input then .Complete crlf.length self
    else otherwise past input

/-- The loop of `Compy_HeaderMap_parse` with the places that are left. -/
def parseLoop : (left : Nat) → (self : HeaderMap) →
    self.headers.length + left = headerMapCapacity → Parser HeaderMap
  | 0, self, _ => self.atEnd (Parser.fail .HeaderMapOverflow)
  | left + 1, self, sum => self.atEnd do
      let header ← Header.parse
      parseLoop left (self.append header (by omega)) (by
        rw [append, List.length_append, List.length_singleton]
        omega)

def parse : Parser HeaderMap := parseLoop headerMapCapacity empty (Nat.zero_add _)

end HeaderMap

end Compy.Rtsp
