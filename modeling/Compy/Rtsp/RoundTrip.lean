import Compy.Rtsp.Incremental
import Compy.Rtsp.Serialize

/-!
# Reading what was written

The serialisers write what the parsers read, under the conditions of RTSP syntax
on the parts of a message, as long as the header lines, added ones included, fit
into the map and the body does not end with the byte that makes the map wait.
-/

set_option autoImplicit false

namespace Compy.Rtsp

open IncrementalParsing

/-! ## The parts of a message -/

theorem reads_skip {α : Type} {Follows : List UInt8 → Prop} {skip : UInt8 → Bool}
    {second : List UInt8 → Parser α} {front back : List UInt8} {result : α}
    (all : ∀ c ∈ front, skip c = true) (stops : ∀ rest, Follows rest → StopsAt skip (back ++ rest))
    (two : Reads Follows (second front) back result) :
    Reads Follows (matchUntil skip >>= second) (front ++ back) result :=
  (reads_matchUntil skip front all).bind two stops

theorem reads_at {α : Type} {Follows : List UInt8 → Prop} {skip : UInt8 → Bool}
    {second : List UInt8 → Parser α} {back : List UInt8} {result : α}
    (stops : ∀ rest, Follows rest → StopsAt skip (back ++ rest))
    (two : Reads Follows (second []) back result) :
    Reads Follows (matchUntil skip >>= second) back result :=
  (reads_matchUntil skip [] fun _ member => absurd member List.not_mem_nil).bind two stops

theorem space_all : ∀ c ∈ charSlice " ", whitespaceMatcher c = true :=
  List.all_eq_true.mp rfl

theorem reads_method (method : List UInt8) (present : method ≠ [])
    (all : ∀ c ∈ method, identMatcher c = true) :
    Reads (StopsAt identMatcher) Method.parse method method :=
  reads_at (fun rest _ => stopsAt_append rest (word_stops ⟨present, all⟩ ident_not_space))
    (reads_matchSome .Ident identMatcher method present all)

theorem reads_requestUri (uri : List UInt8) (present : uri ≠ [])
    (all : ∀ c ∈ uri, nonWhitespaceMatcher c = true) :
    Reads (StopsAt nonWhitespaceMatcher) RequestUri.parse (charSlice " " ++ uri) uri :=
  reads_skip space_all
    (fun rest _ => stopsAt_append rest (word_stops ⟨present, all⟩ fun c other => by
      rwa [nonWhitespaceMatcher, Bool.not_eq_true'] at other))
    (reads_matchUntil nonWhitespaceMatcher uri all)

theorem decimal_stops (matcher : UInt8 → Bool) (n : Nat)
    (other : ∀ c, isDigit c = true → matcher c = false) : StopsAt matcher (decimal n) := by
  obtain ⟨first, more, same⟩ := List.exists_cons_of_ne_nil (decimal_ne_nil n)
  refine ⟨first, more, same, other first (decimal_digits n first ?_)⟩
  rw [same]
  exact List.mem_cons_self

theorem digit_not_space (c : UInt8) (digit : isDigit c = true) : whitespaceMatcher c = false :=
  beq_eq_false_iff_ne.mpr (matched_ne digit rfl)

theorem digit_not_dot (c : UInt8) (digit : isDigit c = true) : (c == '.'.toUInt8) = false :=
  beq_eq_false_iff_ne.mpr (matched_ne digit rfl)

theorem reads_decimal (n : Nat) :
    Reads (StopsAt isDigit) matchNumeric (decimal n) (decimal n) :=
  reads_matchSome .Int isDigit (decimal n) (decimal_ne_nil n) (decimal_digits n)

theorem reads_rtspVersion (version : RtspVersion) (lead : List UInt8)
    (blank : ∀ c ∈ lead, whitespaceMatcher c = true) :
    Reads (StopsAt isDigit) RtspVersion.parse (lead ++ version.bytes) version := by
  rw [RtspVersion.bytes, List.append_assoc, List.append_assoc]
  refine reads_skip blank (fun rest _ => ⟨_, _, rfl, rfl⟩) ?_
  refine (reads_matchStr rtspSlash).bind ?_ fun _ _ => trivial
  refine (reads_decimal version.major.toNat).bind ?_ fun rest _ => ⟨_, _, rfl, rfl⟩
  refine reads_skip (List.all_eq_true.mp rfl) (fun rest _ => stopsAt_append rest
    (decimal_stops _ _ digit_not_dot)) ?_
  refine (reads_decimal version.minor.toNat).bind_pure ?_
  rw [scanU8_decimal, scanU8_decimal]
  rfl

theorem reads_statusCode (code : UInt16) :
    Reads (StopsAt isDigit) StatusCode.parse (charSlice " " ++ decimal code.toNat) code := by
  refine reads_skip space_all (fun rest _ => stopsAt_append rest
    (decimal_stops _ _ digit_not_space)) ?_
  refine (reads_decimal code.toNat).bind_pure ?_
  rw [scanU16_decimal]
  rfl

/-- A text that neither starts with a space nor has a line break in it. -/
structure PlainText (text : List UInt8) : Prop where
  start : text.head? ≠ some ' '.toUInt8
  line : ¬ crlf <:+: text

theorem PlainText.stops {text : List UInt8} (plain : PlainText text) :
    StopsAt whitespaceMatcher (text ++ crlf) := by
  cases text with
  | nil => exact ⟨_, _, rfl, rfl⟩
  | cons first more =>
      refine ⟨first, more ++ crlf, rfl, ?_⟩
      rw [whitespaceMatcher, beq_eq_false_iff_ne]
      rintro rfl
      exact plain.start rfl

theorem reads_textLine {α : Type} (made : List UInt8 → α) (lead text : List UInt8)
    (blank : ∀ c ∈ lead, whitespaceMatcher c = true) (plain : PlainText text) :
    Reads Anything (do
      let _ ← matchWhitespaces
      let line ← matchUntilCrlf
      pure (made (withoutCrlf line)) : Parser α) (lead ++ (text ++ crlf)) (made text) := by
  refine reads_skip blank (fun rest _ => stopsAt_append rest plain.stops) ?_
  refine (reads_matchUntilCrlf text plain.line).bind_pure ?_
  rw [withoutCrlf_line]

structure RequestLine.Writable (line : RequestLine) : Prop where
  method_present : line.method ≠ []
  method : ∀ c ∈ line.method, identMatcher c = true
  uri_present : line.uri ≠ []
  uri : ∀ c ∈ line.uri, nonWhitespaceMatcher c = true

theorem reads_requestLine (line : RequestLine) (writable : line.Writable) :
    Reads Anything RequestLine.parse line.bytes line := by
  have layout : line.bytes = line.method ++ ((charSlice " " ++ line.uri) ++
      ((charSlice " " ++ line.version.bytes) ++ crlf)) := by
    simp only [RequestLine.bytes, List.append_assoc]
  rw [layout]
  refine (reads_method line.method writable.method_present writable.method).bind ?_
    fun rest _ => ⟨_, _, rfl, rfl⟩
  refine (reads_requestUri line.uri writable.uri_present writable.uri).bind ?_
    fun rest _ => ⟨_, _, rfl, rfl⟩
  refine (reads_rtspVersion line.version (charSlice " ") space_all).bind ?_
    fun rest _ => ⟨_, _, rfl, rfl⟩
  exact (reads_matchStr crlf).bind_pure rfl

def ResponseLine.Writable (line : ResponseLine) : Prop := PlainText line.reason

theorem reads_responseLine (line : ResponseLine) (writable : line.Writable) :
    Reads Anything ResponseLine.parse line.bytes line := by
  have layout : line.bytes = line.version.bytes ++ ((charSlice " " ++ decimal line.code.toNat) ++
      (charSlice " " ++ (line.reason ++ crlf))) := by
    simp only [ResponseLine.bytes, List.append_assoc]
  rw [layout]
  refine (reads_rtspVersion line.version [] (by simp)).bind ?_ fun rest _ => ⟨_, _, rfl, rfl⟩
  refine (reads_statusCode line.code).bind ?_ fun rest _ => ⟨_, _, rfl, rfl⟩
  exact (reads_textLine id (charSlice " ") line.reason space_all writable).bind_pure rfl

structure Header.Writable (header : Header) : Prop where
  key_present : header.key ≠ []
  key : ∀ c ∈ header.key, headerNameCharMatcher c = true
  value : PlainText header.value

theorem reads_header (header : Header) (writable : header.Writable) :
    Reads Anything Header.parse header.bytes header := by
  have layout : header.bytes = header.key ++ (charSlice ":" ++ (charSlice " " ++
      (header.value ++ crlf))) := by
    simp only [Header.bytes, List.append_assoc]
    rfl
  rw [layout]
  refine reads_at (fun rest _ => ?_) ?_
  · rw [List.append_assoc]
    exact stopsAt_append _ (word_stops ⟨writable.key_present, writable.key⟩
      headerNameChar_not_space)
  refine (reads_matchSome .HeaderName headerNameCharMatcher header.key writable.key_present
    writable.key).bind ?_ fun rest _ => ⟨_, _, rfl, rfl⟩
  refine reads_at (fun rest _ => ⟨_, _, rfl, rfl⟩) ?_
  refine reads_skip (List.all_eq_true.mp rfl) (fun rest _ => ⟨_, _, rfl, rfl⟩) ?_
  exact reads_textLine (Header.mk header.key) (charSlice " ") header.value space_all
    writable.value

/-! ## The header map -/

theorem headerBytes_cons (header : Header) (headers : List Header) :
    headerBytes (header :: headers) = header.bytes ++ headerBytes headers :=
  List.flatten_cons

theorem notCr_append {front rest : List UInt8} (line : front.getLast? = some '\n'.toUInt8)
    (notCr : NotCr rest) : NotCr (front ++ rest) := by
  rw [NotCr, List.getLast?_append]
  cases final : rest.getLast? with
  | none =>
      rw [line]
      decide
  | some last =>
      rw [NotCr, final] at notCr
      exact notCr

theorem header_bytes_last (header : Header) : header.bytes.getLast? = some '\n'.toUInt8 :=
  getLast?_of_suffix rfl (List.suffix_append _ crlf)

theorem headerMapLoop_ends (left : Nat) (self : HeaderMap)
    (sum : self.headers.length + left = headerMapCapacity) (past : Option UInt8)
    (rest : List UInt8) (notCr : NotCr (crlf ++ rest)) :
    HeaderMap.parseLoop left self sum past (crlf ++ rest) = .Complete crlf.length self := by
  cases left with
  | zero => exact headerMap_atEnd_found self _ past _ notCr (List.prefix_append _ _)
  | succ left => exact headerMap_atEnd_found self _ past _ notCr (List.prefix_append _ _)

/-- A line that is read as a header. -/
structure HeaderText where
  bytes : List UInt8
  header : Header
  reads : Reads Anything Header.parse bytes header
  ends : bytes.getLast? = some '\n'.toUInt8

def textBytes (lines : List HeaderText) : List UInt8 := (lines.map HeaderText.bytes).flatten

theorem textBytes_cons (line : HeaderText) (lines : List HeaderText) :
    textBytes (line :: lines) = line.bytes ++ textBytes lines :=
  List.flatten_cons

theorem textBytes_notCr (lines : List HeaderText) {rest : List UInt8} (notCr : NotCr rest) :
    NotCr (textBytes lines ++ rest) := by
  induction lines with
  | nil => exact notCr
  | cons line lines ih =>
      rw [textBytes_cons, List.append_assoc]
      exact notCr_append line.ends ih

theorem headerMapLoop_line (left : Nat) (self : HeaderMap)
    (sum : self.headers.length + (left + 1) = headerMapCapacity) (line : HeaderText)
    (past : Option UInt8) (rest : List UInt8) (notCr : NotCr (line.bytes ++ rest)) :
    ∃ next : HeaderMap, next.headers = self.headers ++ [line.header] ∧
      ∃ sum' : next.headers.length + left = headerMapCapacity,
        HeaderMap.parseLoop (left + 1) self sum past (line.bytes ++ rest) =
          (HeaderMap.parseLoop left next sum' past rest).shift line.bytes.length := by
  have read := line.reads past rest trivial
  refine ⟨self.append line.header (by omega), rfl, ?_, ?_⟩
  · rw [HeaderMap.append, List.length_append, List.length_singleton]
    omega
  · rw [HeaderMap.parseLoop, headerMap_atEnd_otherwise self _ past _ notCr
      (header_apart past _ _ line.header read), bind_complete _ _ past _ _ line.header read,
      List.drop_left]

theorem headerMapLoop_lines (lines : List HeaderText) (left : Nat) (self : HeaderMap)
    (sum : self.headers.length + left = headerMapCapacity) (room : lines.length ≤ left)
    (past : Option UInt8) (rest : List UInt8) (notCr : NotCr (crlf ++ rest)) :
    ∃ final : HeaderMap, final.headers = self.headers ++ lines.map HeaderText.header ∧
      HeaderMap.parseLoop left self sum past (textBytes lines ++ (crlf ++ rest)) =
        .Complete (textBytes lines ++ crlf).length final := by
  induction lines generalizing left self with
  | nil =>
      refine ⟨self, (List.append_nil _).symm, ?_⟩
      exact headerMapLoop_ends left self sum past rest notCr
  | cons line lines ih =>
      cases left with
      | zero => exact absurd room (by rw [List.length_cons]; omega)
      | succ left =>
          have later := textBytes_notCr lines notCr
          obtain ⟨next, appended, sum', turn⟩ := headerMapLoop_line left self sum line past
            _ (notCr_append line.ends later)
          obtain ⟨final, all, read⟩ := ih left next sum' (Nat.le_of_succ_le_succ room)
          refine ⟨final, ?_, ?_⟩
          · rw [all, appended, List.append_assoc]
            rfl
          · rw [textBytes_cons, List.append_assoc, turn, read, Outcome.shift]
            simp only [List.length_append, Nat.add_assoc]

theorem headerMapLoop_crowded (lines : List HeaderText) (left : Nat) (self : HeaderMap)
    (sum : self.headers.length + left = headerMapCapacity) (many : left < lines.length)
    (past : Option UInt8) (rest : List UInt8) (notCr : NotCr rest) :
    HeaderMap.parseLoop left self sum past (textBytes lines ++ rest) =
      .Failure .HeaderMapOverflow := by
  induction lines generalizing left self with
  | nil => exact absurd many (Nat.not_lt_zero left)
  | cons line lines ih =>
      have whole := notCr_append line.ends (textBytes_notCr lines notCr)
      rw [textBytes_cons, List.append_assoc]
      cases left with
      | zero =>
          have read := line.reads past (textBytes lines ++ rest) trivial
          rw [HeaderMap.parseLoop, headerMap_atEnd_otherwise self _ past _ whole
            (header_apart past _ _ line.header read)]
          rfl
      | succ left =>
          obtain ⟨next, _, sum', turn⟩ := headerMapLoop_line left self sum line past _ whole
          rw [turn, ih left next sum' (Nat.lt_of_succ_lt_succ many)]
          rfl

def Header.Writable.text {header : Header} (writable : header.Writable) : HeaderText :=
  ⟨header.bytes, header, reads_header header writable, header_bytes_last header⟩

theorem exists_texts (headers : List Header)
    (writable : ∀ header ∈ headers, header.Writable) :
    ∃ lines : List HeaderText, textBytes lines = headerBytes headers ∧
      lines.map HeaderText.header = headers := by
  induction headers with
  | nil => exact ⟨[], rfl, rfl⟩
  | cons header headers ih =>
      obtain ⟨ours, others⟩ := List.forall_mem_cons.mp writable
      obtain ⟨lines, bytes, same⟩ := ih others
      refine ⟨ours.text :: lines, ?_, ?_⟩
      · rw [textBytes_cons, headerBytes_cons, bytes]
        rfl
      · rw [List.map_cons, same]
        rfl

theorem headerMapLoop_headers (headers : List Header) (left : Nat) (self : HeaderMap)
    (sum : self.headers.length + left = headerMapCapacity) (room : headers.length ≤ left)
    (writable : ∀ header ∈ headers, header.Writable) (past : Option UInt8) (rest : List UInt8)
    (notCr : NotCr rest) :
    ∃ final : HeaderMap, final.headers = self.headers ++ headers ∧
      HeaderMap.parseLoop left self sum past (headerBytes headers ++ (crlf ++ rest)) =
        .Complete (headerBytes headers ++ crlf).length final := by
  obtain ⟨lines, bytes, rfl⟩ := exists_texts headers writable
  rw [← bytes]
  rw [List.length_map] at room
  exact headerMapLoop_lines lines left self sum room past rest (notCr_append rfl notCr)

theorem headerMapLoop_overflows (headers : List Header) (left : Nat) (self : HeaderMap)
    (sum : self.headers.length + left = headerMapCapacity) (many : left < headers.length)
    (writable : ∀ header ∈ headers, header.Writable) (past : Option UInt8) (rest : List UInt8)
    (notCr : NotCr rest) :
    HeaderMap.parseLoop left self sum past (headerBytes headers ++ rest) =
      .Failure .HeaderMapOverflow := by
  obtain ⟨lines, bytes, rfl⟩ := exists_texts headers writable
  rw [← bytes]
  rw [List.length_map] at many
  exact headerMapLoop_crowded lines left self sum many past rest notCr

/-! ## Messages -/

theorem plain_word (text : List UInt8)
    (all : ∀ c ∈ text, c ≠ ' '.toUInt8 ∧ c ≠ '\r'.toUInt8) : PlainText text where
  start space := (all _ (List.mem_of_head? space)).1 rfl
  line inside := (all '\r'.toUInt8 (inside.subset List.mem_cons_self)).2 rfl

theorem plain_decimal (n : Nat) : PlainText (decimal n) :=
  plain_word _ fun c member =>
    ⟨matched_ne (decimal_digits n c member) rfl, matched_ne (decimal_digits n c member) rfl⟩

theorem plain_decimalSize (len : UInt64) : PlainText (decimalSize len) := by
  rw [decimalSize]
  split
  · exact plain_decimal _
  · refine plain_word _ fun c member => ?_
    rcases List.mem_cons.mp member with rfl | later
    · decide
    · have digit := decimal_digits _ c later
      exact ⟨matched_ne digit rfl, matched_ne digit rfl⟩

theorem headerCSeq_writable (value : List UInt8) (plain : PlainText value) :
    Header.Writable ⟨headerCSeq, value⟩ :=
  ⟨List.cons_ne_nil _ _, List.all_eq_true.mp rfl, plain⟩

theorem headerContentLength_writable (value : List UInt8) (plain : PlainText value) :
    Header.Writable ⟨headerContentLength, value⟩ :=
  ⟨List.cons_ne_nil _ _, List.all_eq_true.mp rfl, plain⟩

namespace Message

variable {Line : Type}

/-- Parts that RTSP syntax has room for. -/
structure Writable (lineWritable : Line → Prop) (message : Message Line) : Prop where
  startLine : lineWritable message.startLine
  headers : ∀ header ∈ message.headerMap.headers, header.Writable
  room : message.addedHeaders.length + message.headerMap.headers.length ≤ headerMapCapacity
  body : NotCr message.body
  size : message.body.length < 2 ^ 64
  cseq : ∀ value, message.headerMap.find headerCSeq = some value →
    scanU32 value = some message.cseq
  contentLength : ∀ value, message.headerMap.find headerContentLength = some value →
    scanSize value = some (UInt64.ofNat message.body.length)

theorem addedHeaders_writable (message : Message Line) :
    ∀ header ∈ message.addedHeaders, header.Writable := by
  intro header member
  rw [addedHeaders] at member
  rcases List.mem_append.mp member with inCSeq | inLength
  · split at inCSeq
    · exact absurd inCSeq List.not_mem_nil
    · rw [List.mem_singleton.mp inCSeq]
      exact headerCSeq_writable _ (plain_decimal _)
  · split at inLength
    · exact absurd inLength List.not_mem_nil
    · rw [List.mem_singleton.mp inLength]
      exact headerContentLength_writable _ (plain_decimalSize _)

theorem addedHeaders_cseq (message : Message Line) :
    (message.addedHeaders.find? fun header => header.key == headerCSeq).map Header.value =
      if message.headerMap.containsKey headerCSeq then none
      else some (decimal message.cseq.toNat) := by
  rw [addedHeaders]
  split
  · split
    · rfl
    · rfl
  · rfl

theorem addedHeaders_contentLength (message : Message Line) :
    (message.addedHeaders.find? fun header => header.key == headerContentLength).map Header.value =
      if message.headerMap.containsKey headerContentLength || message.body.isEmpty then none
      else some (decimalSize (UInt64.ofNat message.body.length)) := by
  rw [addedHeaders]
  split
  · split
    · rfl
    · rfl
  · split
    · rfl
    · rfl

/-- The map that the parser fills from what the serialiser writes. -/
def Sent (message : Message Line) (sent : HeaderMap) : Prop :=
  sent.headers = message.addedHeaders ++ message.headerMap.headers

theorem Sent.find {message : Message Line} {sent : HeaderMap} (sends : message.Sent sent)
    (key : List UInt8) : sent.find key =
      ((message.addedHeaders.find? fun header => header.key == key).map Header.value).or
        (message.headerMap.find key) := by
  rw [HeaderMap.find, sends, List.find?_append, HeaderMap.find]
  cases message.addedHeaders.find? fun header => header.key == key with
  | none => rfl
  | some header => rfl

theorem Sent.cseq {message : Message Line} {sent : HeaderMap} (sends : message.Sent sent)
    (agrees : ∀ value, message.headerMap.find headerCSeq = some value →
      scanU32 value = some message.cseq) : cseqNumber sent = pure message.cseq := by
  have found : ∃ value, sent.find headerCSeq = some value ∧ scanU32 value = some message.cseq := by
    rw [sends.find, addedHeaders_cseq, HeaderMap.containsKey]
    cases own : message.headerMap.find headerCSeq with
    | none => exact ⟨_, rfl, scanU32_decimal message.cseq⟩
    | some value => exact ⟨value, rfl, agrees value own⟩
  obtain ⟨value, found, scanned⟩ := found
  rw [cseqNumber, found]
  dsimp only
  rw [scanned]
  rfl

theorem Sent.contentLength {message : Message Line} {sent : HeaderMap} (sends : message.Sent sent)
    (size : message.body.length < 2 ^ 64)
    (agrees : ∀ value, message.headerMap.find headerContentLength = some value →
      scanSize value = some (UInt64.ofNat message.body.length)) :
    Compy.Rtsp.contentLength sent = pure message.body.length := by
  have read (value : List UInt8)
      (scanned : scanSize value = some (UInt64.ofNat message.body.length)) :
      (Parser.orFail (.ContentLength value) ((scanSize value).map UInt64.toNat) : Parser Nat) =
        pure message.body.length := by
    rw [scanned, Option.map_some, UInt64.toNat_ofNat', Nat.mod_eq_of_lt size]
    rfl
  rw [Compy.Rtsp.contentLength, sends.find, addedHeaders_contentLength, HeaderMap.containsKey]
  cases own : message.headerMap.find headerContentLength with
  | some value => exact read value (agrees value own)
  | none =>
      cases empty : message.body.isEmpty with
      | true =>
          rw [List.isEmpty_iff.mp empty]
          rfl
      | false => exact read _ (scanSize_decimalSize _)

theorem finishMessage_sent {message : Message Line} {sent : HeaderMap} (sends : message.Sent sent)
    {lineWritable : Line → Prop} (writable : message.Writable lineWritable) (past : Option UInt8) :
    finishMessage message.startLine sent past message.body =
      .Complete message.body.length { message with headerMap := sent } := by
  have body : MessageBody.parse message.body.length past message.body =
      .Complete message.body.length message.body := by
    rw [messageBody_found _ past message.body (Nat.le_refl _), List.take_length]
  rw [finishMessage, sends.contentLength writable.size writable.contentLength, pure_bind,
    bind_complete _ _ past _ _ message.body body, sends.cseq writable.cseq, pure_bind]
  rfl

/-- The start line of a message is written so that it is read back, and cannot be
taken for an interleaved frame. -/
structure LineReads (parseLine : Parser Line) (lineBytes : List UInt8) (startLine : Line) :
    Prop where
  reads : Reads Anything parseLine lineBytes startLine
  enough : interleavedHeaderSize ≤ lineBytes.length
  head : lineBytes.head? ≠ some '$'.toUInt8

theorem parseMessage_line {parseLine : Parser Line} {lineBytes : List UInt8} {startLine : Line}
    (line : LineReads parseLine lineBytes startLine) (past : Option UInt8) (lines : List UInt8) :
    parseMessage parseLine past (lineBytes ++ lines) =
      ((HeaderMap.parse >>= finishMessage startLine) past lines).shift lineBytes.length := by
  obtain ⟨reads, enough, head⟩ := line
  have start : (lineBytes ++ lines).head? ≠ some '$'.toUInt8 := by
    cases lineBytes with
    | nil => exact absurd enough (by decide)
    | cons c bytes => exact head
  rw [message_unframed parseLine past _ (by rw [List.length_append]; omega) start,
    bind_complete parseLine _ past _ _ startLine (reads past lines trivial), List.drop_left]

theorem bytes_layout (message : Message Line) (lineBytes : Line → List UInt8) :
    message.bytes lineBytes = lineBytes message.startLine ++
      (headerBytes (message.addedHeaders ++ message.headerMap.headers) ++
        (crlf ++ message.body)) := by
  simp only [Message.bytes, List.append_assoc]

theorem allHeaders_writable (message : Message Line)
    (headers : ∀ header ∈ message.headerMap.headers, header.Writable) :
    ∀ header ∈ message.addedHeaders ++ message.headerMap.headers, header.Writable := by
  intro header member
  rcases List.mem_append.mp member with added | own
  · exact addedHeaders_writable message header added
  · exact headers header own

theorem parse_bytes {parseLine : Parser Line} {lineBytes : Line → List UInt8}
    {lineWritable : Line → Prop} (message : Message Line) (writable : message.Writable lineWritable)
    (line : LineReads parseLine (lineBytes message.startLine) message.startLine)
    (past : Option UInt8) :
    ∃ sent, message.Sent sent ∧ parseMessage parseLine past (message.bytes lineBytes) =
      .Complete (message.bytes lineBytes).length { message with headerMap := sent } := by
  obtain ⟨sent, sends, read⟩ := headerMapLoop_headers _ headerMapCapacity HeaderMap.empty
    (Nat.zero_add _) (by rw [List.length_append]; exact writable.room)
    (allHeaders_writable message writable.headers) past message.body writable.body
  refine ⟨sent, sends, ?_⟩
  rw [bytes_layout, parseMessage_line line]
  generalize headerBytes (message.addedHeaders ++ message.headerMap.headers) = lines at read ⊢
  have rest : (lines ++ (crlf ++ message.body)).drop (lines ++ crlf).length = message.body := by
    rw [← List.append_assoc, List.drop_left]
  rw [bind_complete HeaderMap.parse _ past _ _ sent read, rest,
    finishMessage_sent sends writable past]
  simp only [Outcome.shift, List.length_append, Nat.add_assoc]

theorem parse_overflows {parseLine : Parser Line} {lineBytes : Line → List UInt8}
    (message : Message Line) (headers : ∀ header ∈ message.headerMap.headers, header.Writable)
    (many : headerMapCapacity < message.addedHeaders.length + message.headerMap.headers.length)
    (body : NotCr message.body)
    (line : LineReads parseLine (lineBytes message.startLine) message.startLine)
    (past : Option UInt8) :
    parseMessage parseLine past (message.bytes lineBytes) = .Failure .HeaderMapOverflow := by
  have full := headerMapLoop_overflows _ headerMapCapacity HeaderMap.empty (Nat.zero_add _)
    (by rw [List.length_append]; exact many) (allHeaders_writable message headers) past
    (crlf ++ message.body) (notCr_append rfl body)
  rw [bytes_layout, parseMessage_line line, bind_apply, HeaderMap.parse, full]
  rfl

end Message

theorem length_of_reads {α : Type} {count : Nat} {parser : Parser α} {bytes : List UInt8}
    {value : α} (takes : TakesAtLeast count parser) (reads : Reads Anything parser bytes value) :
    count ≤ bytes.length :=
  takes none _ bytes.length value (reads none [] trivial)

theorem requestLine_reads (line : RequestLine) (writable : line.Writable) :
    Message.LineReads RequestLine.parse line.bytes line where
  reads := reads_requestLine line writable
  enough := length_of_reads requestLine_starts.long (reads_requestLine line writable)
  head := by
    obtain ⟨first, more, method⟩ := List.exists_cons_of_ne_nil writable.method_present
    have ident := writable.method first (by rw [method]; exact List.mem_cons_self)
    have layout : line.bytes.head? = some first := by
      simp only [RequestLine.bytes, method, List.cons_append, List.head?_cons]
    rw [layout]
    exact fun dollar => matched_ne ident rfl (Option.some.inj dollar)

theorem responseLine_reads (line : ResponseLine) (writable : line.Writable) :
    Message.LineReads ResponseLine.parse line.bytes line where
  reads := reads_responseLine line writable
  enough := length_of_reads responseLine_starts.long (reads_responseLine line writable)
  head := by
    have layout : line.bytes.head? = some 'R'.toUInt8 := rfl
    rw [layout]
    decide

/-! ## Writing and reading -/

/-- The message is written with the count that is returned, and from these bytes read
again, its header lines behind those added in front. -/
def ReadBack {W Line : Type} (written : W → List UInt8) (serialize : Message Line → Call W)
    (parse : Parser (Message Line)) (message : Message Line) : Prop :=
  ∀ self past, ∃ bytes sent, written (serialize message self).2 = written self ++ bytes ∧
    (serialize message self).1 = bytes.length ∧
    sent.headers = message.addedHeaders ++ message.headerMap.headers ∧
    parse past bytes = .Complete bytes.length { message with headerMap := sent }

theorem Message.readBack {W Line : Type} {written : W → List UInt8} {w : Writer W}
    (never : w.NeverFails written) {serializeLine : Line → Call W} {lineBytes : Line → List UInt8}
    (writesLine : ∀ startLine, Writes written (serializeLine startLine) (lineBytes startLine))
    {parseLine : Parser Line} {lineWritable : Line → Prop} (message : Message Line)
    (writable : message.Writable lineWritable)
    (line : Message.LineReads parseLine (lineBytes message.startLine) message.startLine) :
    ReadBack written (Message.serialize serializeLine w) (parseMessage parseLine) message := by
  intro self past
  obtain ⟨returned, added⟩ := writes_message never writesLine message self
  obtain ⟨sent, sends, parsed⟩ := Message.parse_bytes message writable line past
  exact ⟨message.bytes lineBytes, sent, added, returned, sends, parsed⟩

theorem serialize_parse {W : Type} (w : Writer W) (written : W → List UInt8)
    (never : w.NeverFails written) :
    (∀ request : Request, request.Writable RequestLine.Writable →
      ReadBack written (Request.serialize w) Request.parse request) ∧
    ∀ response : Response, response.Writable ResponseLine.Writable →
      ReadBack written (Response.serialize w) Response.parse response := by
  constructor
  · intro request writable
    exact Message.readBack never (writes_requestLine never) request writable
      (requestLine_reads request.startLine writable.startLine)
  · intro response writable
    exact Message.readBack never (writes_responseLine never) response writable
      (responseLine_reads response.startLine writable.startLine)

/-- The bytes written so far are the writer. -/
def listWriter : Writer (List UInt8) where
  write data self := (data.length, self ++ data)
  writef data self := (data.length, self ++ data)

theorem listWriter_neverFails : listWriter.NeverFails id where
  write_ret _ _ := rfl
  write_adds _ _ := rfl
  writef_ret _ _ := rfl
  writef_adds _ _ := rfl

theorem optionsRequest_writable : optionsRequest.Writable RequestLine.Writable where
  startLine := ⟨List.cons_ne_nil _ _, List.all_eq_true.mp rfl, List.cons_ne_nil _ _,
    List.all_eq_true.mp rfl⟩
  headers := by
    intro header member
    rw [List.mem_singleton.mp member]
    exact headerCSeq_writable _ (plain_decimal 1)
  room := by decide
  body := by decide
  size := by decide
  cseq := by
    intro value found
    cases found
    rfl
  contentLength := by
    intro value found
    cases found

def okResponse : Response where
  startLine := { version := ⟨1, 0⟩, code := 200, reason := charSlice "OK" }
  headerMap := HeaderMap.empty
  body := charSlice "v=0"
  cseq := 312

theorem okResponse_writable : okResponse.Writable ResponseLine.Writable where
  startLine := ⟨by decide, by decide⟩
  headers := fun _ member => absurd member List.not_mem_nil
  room := by decide
  body := by decide
  size := by decide
  cseq := fun _ found => by cases found
  contentLength := fun _ found => by cases found

theorem written_messages_read :
    ReadBack id (Request.serialize listWriter) Request.parse optionsRequest ∧
      ReadBack id (Response.serialize listWriter) Response.parse okResponse :=
  ⟨(serialize_parse listWriter id listWriter_neverFails).1 optionsRequest optionsRequest_writable,
    (serialize_parse listWriter id listWriter_neverFails).2 okResponse okResponse_writable⟩

def crowdedRequest : Request where
  startLine := optionsRequest.startLine
  headerMap := ⟨List.replicate headerMapCapacity ⟨charSlice "A", charSlice "1"⟩,
    Nat.le_of_eq List.length_replicate⟩
  body := []
  cseq := 1

theorem crowdedRequest_headers :
    ∀ header ∈ crowdedRequest.headerMap.headers, header.Writable := by
  intro header member
  rw [List.eq_of_mem_replicate member]
  exact ⟨List.cons_ne_nil _ _, List.all_eq_true.mp rfl, plain_decimal 1⟩

/-- Four messages that are not read back: one header line too many, a body that
ends with a carriage return, a header without a name and a request without a
method. -/
theorem written_messages_lost :
    (crowdedRequest.headerMap.headers.length = 32 ∧
      Request.parse none (Request.serialize listWriter crowdedRequest []).2 =
        .Failure .HeaderMapOverflow) ∧
    Response.parse none
        (Response.serialize listWriter { okResponse with body := charSlice "\r" } []).2 =
      .Partial ∧
    Request.parse none (Request.serialize listWriter { optionsRequest with
        headerMap := ⟨[⟨[], charSlice "1"⟩], by decide⟩ } []).2 =
      .Failure (.TypeMismatch .HeaderName (charSlice ": 1\r\n\r\n")) ∧
    Request.parse none (Request.serialize listWriter { optionsRequest with
        startLine := { optionsRequest.startLine with method := [] } } []).2 =
      .Failure (.TypeMismatch .Ident (charSlice "* RTSP/1.0\r\nCSeq: 1\r\n\r\n")) := by
  refine ⟨⟨rfl, ?_⟩, ?_, ?_, ?_⟩
  · have written := (writes_message listWriter_neverFails
      (writes_requestLine listWriter_neverFails) crowdedRequest []).2
    rw [id_eq, id_eq, List.nil_append] at written
    rw [Request.serialize, written]
    exact Message.parse_overflows crowdedRequest crowdedRequest_headers (by decide) (by decide)
      (requestLine_reads _ optionsRequest_writable.startLine) none
  · rw [Response.parse, message_unframed _ none _ (by decide) (by decide)]
    rfl
  · rw [Request.parse, message_unframed _ none _ (by decide) (by decide)]
    rfl
  · rw [Request.parse, message_unframed _ none _ (by decide) (by decide)]
    rfl

end Compy.Rtsp
