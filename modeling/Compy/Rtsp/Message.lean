import Compy.Library.BigEndian
import Compy.Rtsp.Deciding

/-!
# Requests and responses

`Compy_Request_parse` and `Compy_Response_parse` differ in the start line only.
-/

set_option autoImplicit false

namespace Compy.Rtsp

open IncrementalParsing BigEndian

structure Message (Line : Type) where
  startLine : Line
  headerMap : HeaderMap
  body : List UInt8
  cseq : UInt32
  deriving DecidableEq

abbrev Request := Message RequestLine

abbrev Response := Message ResponseLine

def interleavedHeaderSize : Nat := 4

/-- The payload length of `compy_parse_interleaved_header`. -/
def interleavedPayloadLen (data : List UInt8) : Nat := (word16 (data.drop 2)).toNat

theorem frame_shrinks (input : List UInt8) (payloadLen : Nat)
    (enough : ¬ input.length < interleavedHeaderSize) :
    ((input.drop interleavedHeaderSize).drop payloadLen).length < input.length := by
  rw [interleavedHeaderSize] at enough ⊢
  rw [List.length_drop, List.length_drop]
  omega

/-- The loop in front of a message that passes over interleaved frames. -/
def skipInterleaved : Parser Unit := fun past input =>
  if _ : input.length < interleavedHeaderSize then .Partial
  else if input.head? = some '$'.toUInt8 then
    let payloadLen := interleavedPayloadLen input
    if (input.drop interleavedHeaderSize).length < payloadLen then .Partial
    else (skipInterleaved past ((input.drop interleavedHeaderSize).drop payloadLen)).shift
      (interleavedHeaderSize + payloadLen)
  else .Complete 0 ()
termination_by _ input => input.length
decreasing_by exact frame_shrinks _ _ (by assumption)

def MessageBody.parse (contentLength : Nat) : Parser (List UInt8) := fun _ input =>
  if input.length < contentLength then .Partial
  else if contentLength = 0 then .Complete 0 []
  else .Complete contentLength (input.take contentLength)

/-- The content length is zero without its header. -/
def contentLength (headerMap : HeaderMap) : Parser Nat :=
  match headerMap.find headerContentLength with
  | none => pure 0
  | some value => Parser.orFail (.ContentLength value) ((scanSize value).map UInt64.toNat)

def cseqNumber (headerMap : HeaderMap) : Parser UInt32 :=
  match headerMap.find headerCSeq with
  | none => Parser.fail .MissingCSeq
  | some value => Parser.orFail (.InvalidCSeq value) (scanU32 value)

def parseMessage {Line : Type} (parseLine : Parser Line) : Parser (Message Line) := do
  let _ ← skipInterleaved
  let startLine ← parseLine
  let headerMap ← HeaderMap.parse
  let contentLengthInt ← contentLength headerMap
  let body ← MessageBody.parse contentLengthInt
  let cseq ← cseqNumber headerMap
  pure { startLine := startLine, headerMap := headerMap, body := body, cseq := cseq }

def Request.parse : Parser Request := parseMessage RequestLine.parse

def Response.parse : Parser Response := parseMessage ResponseLine.parse

/-! ## Interleaved frames -/

/-- Whole frames, each a `$`, a channel, a payload length and the payload. -/
inductive Frames : List UInt8 → Prop where
  | none : Frames []
  | some (frame rest : List UInt8) (dollar : frame.head? = some '$'.toUInt8)
      (length : frame.length = interleavedHeaderSize + interleavedPayloadLen frame)
      (more : Frames rest) : Frames (frame ++ rest)

theorem interleavedPayloadLen_congr {left right : List UInt8}
    (same : left.take interleavedHeaderSize = right.take interleavedHeaderSize) :
    interleavedPayloadLen left = interleavedPayloadLen right := by
  rw [interleavedPayloadLen, interleavedPayloadLen,
    word16_drop_congr left right 2 interleavedHeaderSize (Nat.le_refl _) same]

theorem skipInterleaved_short (past : Option UInt8) (input : List UInt8)
    (short : input.length < interleavedHeaderSize) : skipInterleaved past input = .Partial := by
  rw [skipInterleaved, dif_pos short]

theorem skipInterleaved_message (past : Option UInt8) (input : List UInt8)
    (enough : interleavedHeaderSize ≤ input.length) (other : input.head? ≠ some '$'.toUInt8) :
    skipInterleaved past input = .Complete 0 () := by
  rw [skipInterleaved, dif_neg (Nat.not_lt.mpr enough), if_neg other]

theorem skipInterleaved_frame (past : Option UInt8) (input : List UInt8)
    (enough : interleavedHeaderSize ≤ input.length) (dollar : input.head? = some '$'.toUInt8) :
    skipInterleaved past input =
      if input.length < interleavedHeaderSize + interleavedPayloadLen input then .Partial
      else (skipInterleaved past
        (input.drop (interleavedHeaderSize + interleavedPayloadLen input))).shift
          (interleavedHeaderSize + interleavedPayloadLen input) := by
  rw [skipInterleaved, dif_neg (Nat.not_lt.mpr enough), if_pos dollar]
  simp only [List.drop_drop, List.length_drop]
  exact if_congr (by omega) rfl rfl

theorem frame_front (frame tail : List UInt8) (dollar : frame.head? = some '$'.toUInt8)
    (length : frame.length = interleavedHeaderSize + interleavedPayloadLen frame) :
    (frame ++ tail).head? = some '$'.toUInt8 ∧
      interleavedPayloadLen (frame ++ tail) = interleavedPayloadLen frame := by
  constructor
  · rw [List.head?_append, dollar]
    rfl
  · apply interleavedPayloadLen_congr
    rw [List.take_append_of_le_length (by omega)]

theorem skipInterleaved_append (past : Option UInt8) (frame tail : List UInt8)
    (dollar : frame.head? = some '$'.toUInt8)
    (length : frame.length = interleavedHeaderSize + interleavedPayloadLen frame) :
    skipInterleaved past (frame ++ tail) = (skipInterleaved past tail).shift frame.length := by
  obtain ⟨head, payload⟩ := frame_front frame tail dollar length
  have whole : interleavedHeaderSize + interleavedPayloadLen (frame ++ tail) = frame.length := by
    rw [payload, length]
  rw [skipInterleaved_frame past _ (by rw [List.length_append]; omega) head, whole,
    if_neg (by rw [List.length_append]; omega), List.drop_left]

theorem skipInterleaved_found (past : Option UInt8) {frames : List UInt8} (framed : Frames frames)
    (rest : List UInt8) (enough : interleavedHeaderSize ≤ rest.length)
    (other : rest.head? ≠ some '$'.toUInt8) :
    skipInterleaved past (frames ++ rest) = .Complete frames.length () := by
  induction framed with
  | none => exact skipInterleaved_message past rest enough other
  | some frame more dollar length _ ih =>
      rw [List.append_assoc, skipInterleaved_append past frame _ dollar length, ih,
        Outcome.shift, List.length_append]

theorem skipInterleaved_waits (past : Option UInt8) {frames : List UInt8} (framed : Frames frames)
    (rest other : List UInt8) (starts : other <+: frames ++ rest)
    (short : other.length < frames.length + interleavedHeaderSize) :
    skipInterleaved past other = .Partial := by
  induction framed generalizing other with
  | none =>
      rw [List.length_nil, Nat.zero_add] at short
      exact skipInterleaved_short past other short
  | some frame more dollar length _ ih =>
      by_cases header : other.length < interleavedHeaderSize
      · exact skipInterleaved_short past other header
      · rw [List.append_assoc] at starts
        by_cases within : frame.length ≤ other.length
        · obtain ⟨tail, rfl⟩ := List.prefix_of_prefix_length_le (List.prefix_append frame _) starts
            within
          rw [skipInterleaved_append past frame tail dollar length, shift_eq_partial]
          refine ih tail ((List.prefix_append_right_inj frame).mp starts) ?_
          rw [List.length_append, List.length_append] at short
          omega
        · have cut : other <+: frame :=
            List.prefix_of_prefix_length_le starts (List.prefix_append frame _) (by omega)
          obtain ⟨missing, rfl⟩ := cut
          have front : interleavedPayloadLen other = interleavedPayloadLen (other ++ missing) :=
            interleavedPayloadLen_congr
              (List.take_append_of_le_length (Nat.le_of_not_lt header)).symm
          have head : other.head? = some '$'.toUInt8 := by
            cases other with
            | nil => exact absurd (show 0 < interleavedHeaderSize by decide) header
            | cons c others => exact dollar
          rw [skipInterleaved_frame past other (Nat.le_of_not_lt header) head, front, ← length,
            if_pos (Nat.lt_of_not_le within)]

theorem skipInterleaved_complete (past : Option UInt8) (input : List UInt8) (offset : Nat)
    (value : Unit) (accepted : skipInterleaved past input = .Complete offset value) :
    ∃ frames rest, input = frames ++ rest ∧ offset = frames.length ∧ Frames frames ∧
      interleavedHeaderSize ≤ rest.length ∧ rest.head? ≠ some '$'.toUInt8 := by
  induction size : input.length using Nat.strong_induction_on generalizing input offset with
  | _ count ih =>
      by_cases short : input.length < interleavedHeaderSize
      · rw [skipInterleaved_short past input short] at accepted
        contradiction
      · have enough := Nat.le_of_not_lt short
        by_cases dollar : input.head? = some '$'.toUInt8
        · rw [skipInterleaved_frame past input enough dollar] at accepted
          split at accepted
          · contradiction
          · rename_i whole
            obtain ⟨own, inner, rfl⟩ := (shift_eq_complete _ _ offset value).mp accepted
            generalize frameLength : interleavedHeaderSize + interleavedPayloadLen input = length
              at whole inner
            have headed : interleavedHeaderSize ≤ length := by omega
            have positive : 0 < length := Nat.lt_of_lt_of_le (by decide) headed
            obtain ⟨frames, rest, split_, rfl, framed, left, other⟩ :=
              ih _ (by rw [List.length_drop]; omega) (input.drop length) own inner rfl
            refine ⟨input.take length ++ frames, rest, ?_, ?_, ?_, left, other⟩
            · rw [List.append_assoc, ← split_, List.take_append_drop]
            · rw [List.length_append, List.length_take, Nat.min_eq_left (by omega)]
            · refine Frames.some _ frames ?_ ?_ framed
              · rw [List.head?_take, if_neg (Nat.pos_iff_ne_zero.mp positive), dollar]
              · have front : interleavedPayloadLen (input.take length) =
                    interleavedPayloadLen input := by
                  apply interleavedPayloadLen_congr
                  rw [List.take_take, Nat.min_eq_left headed]
                rw [front, frameLength, List.length_take, Nat.min_eq_left (by omega)]
        · rw [skipInterleaved_message past input enough dollar] at accepted
          cases accepted
          exact ⟨[], input, rfl, rfl, Frames.none, enough, dollar⟩

theorem decides_skipInterleaved {Among : List UInt8 → Prop} :
    Decides Among Never interleavedHeaderSize skipInterleaved where
  inside past input offset value accepted := by
    obtain ⟨frames, rest, rfl, rfl, _, enough, _⟩ :=
      skipInterleaved_complete past input offset value accepted
    rw [List.length_append]
    omega
  stable past input offset value accepted past' other starts _ := by
    obtain ⟨frames, rest, rfl, rfl, framed, enough, head⟩ :=
      skipInterleaved_complete past input offset value accepted
    obtain ⟨tail, rfl⟩ := starts
    rw [List.take_length_add_append, List.append_assoc]
    refine skipInterleaved_found past' framed _ ?_ ?_
    · rw [List.length_append, List.length_take, Nat.min_eq_left enough]
      omega
    · cases rest with
      | nil => exact absurd enough (by decide)
      | cons c rest => exact head
  waits past input offset value accepted past' other starts short _ _ := by
    obtain ⟨frames, rest, rfl, rfl, framed, _, _⟩ :=
      skipInterleaved_complete past input offset value accepted
    exact skipInterleaved_waits past' framed rest other starts short
  stops _ _ _ stuck := stuck.elim

end Compy.Rtsp
