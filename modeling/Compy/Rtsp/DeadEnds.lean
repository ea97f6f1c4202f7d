import Compy.Library.Settling
import Compy.Rtsp.HeaderCase

/-!
# What more input can do

Whether a parser that has asked for more can be brought to an answer.  A few bytes make
every matcher stop; what can keep the parser waiting is the body alone, when the content
length asks for more than there can be.
-/

set_option autoImplicit false

namespace Compy.Rtsp

open IncrementalParsing Searching

/-! ## The matchers in front of bytes that they do not take -/

def EndsIn (tail : List UInt8) (input : List UInt8) : Prop := tail <:+ input

theorem settles_matchUntil {matcher : UInt8 → Bool} {c : UInt8} {tail : List UInt8}
    (stop : matcher c = false) :
    Settles (EndsIn (c :: tail)) (matchUntil matcher) (EndsIn (c :: tail)) := by
  rintro past _ ⟨front, rfl⟩
  right
  rcases all_or_first matcher front with all | ⟨skipped, d, rest, rfl, all, stop'⟩
  · refine ⟨front.length, front, matchUntil_found matcher past front c tail all stop, ?_⟩
    rw [List.drop_left]
    exact List.suffix_refl _
  · have found := matchUntil_found matcher past skipped d (rest ++ c :: tail) all stop'
    refine ⟨skipped.length, skipped, ?_, ?_⟩
    · rw [List.append_assoc]
      exact found
    · rw [List.append_assoc, List.drop_left]
      exact List.suffix_append (d :: rest) _

theorem settles_matchSome {kind : ParseType} {matcher : UInt8 → Bool} {c : UInt8}
    {tail : List UInt8} (stop : matcher c = false) :
    Settles (EndsIn (c :: tail)) (matchSome kind matcher) (EndsIn (c :: tail)) := by
  intro past input ends
  cases input with
  | nil => exact absurd (List.suffix_nil.mp ends) (List.cons_ne_nil _ _)
  | cons d rest =>
      cases wanted : matcher d with
      | false =>
          left
          exact ⟨.TypeMismatch kind (d :: rest), by simp [matchSome, wanted]⟩
      | true =>
          rw [matchSome_cons kind matcher past d rest wanted]
          exact settles_matchUntil stop past (d :: rest) ends

theorem settles_matchStr {str : List UInt8} {c : UInt8} {tail : List UInt8} (absent : c ∉ str) :
    Settles (EndsIn (c :: tail)) (matchStr str) (EndsIn (c :: tail)) := by
  rintro past _ ⟨front, rfl⟩
  simp only [matchStr]
  split
  · exact .inl ⟨_, rfl⟩
  · rename_i same
    rw [not_not] at same
    have inside : str.length ≤ front.length := by
      by_contra outside
      have reached : front.length + 1 ≤ min (front ++ c :: tail).length str.length := by
        rw [List.length_append, List.length_cons]
        omega
      have among : c ∈ (front ++ c :: tail).take (front.length + 1) := by
        rw [List.take_length_add_append]
        simp
      have taken := (List.take_sublist_take_left reached).mem among
      rw [same] at taken
      exact absent (List.mem_of_mem_take taken)
    right
    rw [if_neg (by rw [List.length_append]; omega)]
    refine ⟨str.length, _, rfl, ?_⟩
    rw [List.drop_append_of_le_length inside]
    exact List.suffix_append _ _

theorem first_crlf {text : List UInt8} (inside : crlf <:+: text) :
    ∃ value rest, text = value ++ crlf ++ rest ∧ ¬ crlf <:+: value := by
  obtain ⟨i, first⟩ := exists_firstAt_iff.mpr inside
  exact ⟨text.take i, _, first.occurs.split, first.clean crlf_ne_nil⟩

theorem matchUntilCrlf_found (past : Option UInt8) (value rest : List UInt8)
    (clean : ¬ crlf <:+: value) :
    matchUntilCrlf past (value ++ crlf ++ rest) =
      .Complete (value ++ crlf).length (value ++ crlf) :=
  reads_matchUntilCrlf value clean past rest trivial

theorem settles_matchUntilCrlf {c : UInt8} {tail : List UInt8} (other : c ≠ '\n'.toUInt8) :
    Settles (EndsIn (c :: (crlf ++ tail))) matchUntilCrlf
      (fun rest => EndsIn (c :: (crlf ++ tail)) rest ∨ rest = tail) := by
  rintro past _ ⟨front, rfl⟩
  right
  have layout : front ++ c :: (crlf ++ tail) = front ++ [c] ++ crlf ++ tail := by
    simp only [List.append_assoc, List.cons_append, List.nil_append]
  rw [layout]
  by_cases inside : crlf <:+: front ++ [c]
  · obtain ⟨value, rest, same, clean⟩ := first_crlf inside
    refine ⟨(value ++ crlf).length, value ++ crlf, ?_, .inl ?_⟩
    · rw [same, List.append_assoc, List.append_assoc]
      exact matchUntilCrlf_found past value _ clean
    · rw [same, List.append_assoc, List.append_assoc, List.drop_left]
      rcases rest.eq_nil_or_concat with rfl | ⟨more, last, rfl⟩
      · rw [List.append_nil] at same
        have ends := congrArg List.getLast? same
        rw [List.getLast?_concat, List.getLast?_append] at ends
        exact absurd (Option.some.inj ends) other
      · rw [List.concat_eq_append, ← List.append_assoc] at same
        obtain ⟨_, last_⟩ := List.append_inj' same rfl
        rw [List.concat_eq_append, ← last_, List.append_assoc]
        exact List.suffix_append more _
  · refine ⟨(front ++ [c] ++ crlf).length, front ++ [c] ++ crlf, ?_, .inr List.drop_left⟩
    exact matchUntilCrlf_found past _ tail inside

theorem settles_orFail {α : Type} {Before : List UInt8 → Prop} (error : ParseError)
    (value : Option α) : Settles Before (Parser.orFail error value) Before := by
  cases value with
  | none => exact settles_fail error
  | some value => exact settles_pure value

/-! ## The parsers in front of an end that no field takes

An exclamation mark stands in no method, number or header name.  The space behind the first
one ends a URI, and the line break behind the second a reason phrase or a header value. -/

def mark : UInt8 := '!'.toUInt8

def lineEnd (pad : List UInt8) : List UInt8 := mark :: (crlf ++ mark :: pad)

def stopper (pad : List UInt8) : List UInt8 := mark :: (' '.toUInt8 :: lineEnd pad)

theorem stopper_lineEnd (pad : List UInt8) {input : List UInt8}
    (ends : EndsIn (stopper pad) input) : EndsIn (lineEnd pad) input :=
  (List.suffix_append [mark, ' '.toUInt8] _).trans ends

theorem stopper_length (pad : List UInt8) : (stopper pad).length = 6 + pad.length := by
  simp only [stopper, lineEnd, List.length_append, List.length_cons]
  rw [show crlf.length = 2 from rfl]
  omega

theorem pad_notCr (count : Nat) : NotCr (mark :: List.replicate count mark) := by
  rw [← List.replicate_succ, NotCr, List.getLast?_replicate]
  split <;> decide

theorem line_inside {front back input : List UInt8} (line : front.getLast? = some '\n'.toUInt8)
    (same : front ++ back = input ++ [mark, ' '.toUInt8]) : ∃ rest, input = front ++ rest := by
  rcases List.append_eq_append_iff.mp same with ⟨more, rfl, _⟩ | ⟨more, rfl, tail⟩
  · exact ⟨more, rfl⟩
  · rcases more with _ | ⟨c, more⟩
    · exact ⟨[], by simp only [List.append_nil]⟩
    · have last : (c :: more).getLast? = some '\n'.toUInt8 := by
        rw [List.getLast?_append_of_ne_nil _ (List.cons_ne_nil c more)] at line
        exact line
      have among : '\n'.toUInt8 ∈ [mark, ' '.toUInt8] := by
        rw [tail]
        exact List.mem_append_left _ (List.mem_of_getLast? last)
      exact absurd among (by decide)

theorem settles_rtspVersion (tail : List UInt8) :
    Settles (EndsIn (mark :: tail)) RtspVersion.parse (EndsIn (mark :: tail)) := by
  refine (settles_matchUntil rfl).bind fun _ => ?_
  refine (settles_matchStr (by decide)).bind fun _ => ?_
  refine (settles_matchSome rfl).bind fun _ => ?_
  refine (settles_matchUntil rfl).bind fun _ => ?_
  refine (settles_matchSome rfl).bind fun _ => ?_
  refine (settles_orFail _ _).bind fun _ => ?_
  exact (settles_orFail _ _).bind fun _ => settles_pure _

theorem settles_crlf (pad : List UInt8) :
    Settles (EndsIn (lineEnd pad)) (matchStr crlf) (EndsIn (lineEnd pad)) :=
  settles_matchStr (by decide)

/-- Where the parser of the header map starts: the end is still there, or all but its line
break is gone. -/
def AtHeaders (pad rest : List UInt8) : Prop := EndsIn (lineEnd pad) rest ∨ rest = mark :: pad

theorem settles_requestLine (pad : List UInt8) :
    Settles (EndsIn (stopper pad)) RequestLine.parse (AtHeaders pad) := by
  have method : Settles (EndsIn (stopper pad)) Method.parse (EndsIn (stopper pad)) :=
    (settles_matchUntil rfl).bind fun _ => settles_matchSome rfl
  have uri : Settles (EndsIn (stopper pad)) RequestUri.parse (EndsIn (lineEnd pad)) := by
    refine (settles_matchUntil rfl).bind fun _ => ?_
    have atSpace : Settles (EndsIn (' '.toUInt8 :: lineEnd pad)) matchNonWhitespaces
        (EndsIn (' '.toUInt8 :: lineEnd pad)) := settles_matchUntil rfl
    exact atSpace.weaken (fun _ ends => (List.suffix_cons mark _).trans ends)
      (fun _ ends => (List.suffix_cons _ _).trans ends)
  refine method.bind fun _ => uri.bind fun _ => (settles_rtspVersion _).bind fun _ => ?_
  exact (settles_crlf pad).bind fun _ =>
    (settles_pure _).weaken (fun _ ends => .inl ends) (fun _ ends => ends)

theorem settles_responseLine (pad : List UInt8) :
    Settles (EndsIn (stopper pad)) ResponseLine.parse (AtHeaders pad) := by
  have code : Settles (EndsIn (stopper pad)) StatusCode.parse (EndsIn (stopper pad)) :=
    (settles_matchUntil rfl).bind fun _ => (settles_matchSome rfl).bind fun _ => settles_orFail _ _
  have reason : Settles (EndsIn (lineEnd pad)) ReasonPhrase.parse (AtHeaders pad) :=
    (settles_matchUntil rfl).bind fun _ => (settles_matchUntilCrlf (by decide)).bind fun _ =>
      settles_pure _
  refine (settles_rtspVersion _).bind fun _ => code.bind fun _ => ?_
  exact (reason.weaken (fun _ => stopper_lineEnd pad) (fun _ ends => ends)).bind fun _ =>
    settles_pure _

theorem settles_header (pad : List UInt8) :
    Settles (AtHeaders pad) Header.parse (AtHeaders pad) := by
  have line : Settles (EndsIn (lineEnd pad)) Header.parse (AtHeaders pad) := by
    refine (settles_matchUntil rfl).bind fun _ => (settles_matchSome rfl).bind fun _ => ?_
    refine (settles_matchUntil rfl).bind fun _ => (settles_matchUntil rfl).bind fun _ => ?_
    refine (settles_matchUntil rfl).bind fun _ => ?_
    exact (settles_matchUntilCrlf (by decide)).bind fun _ => settles_pure _
  intro past input starts
  rcases starts with ends | rfl
  · exact line past input ends
  · left
    have skipped : matchWhitespaces past (mark :: pad) = .Complete 0 [] :=
      matchUntil_found _ past [] mark pad (fun _ absent => absurd absent List.not_mem_nil) rfl
    rw [Header.parse, bind_complete _ _ past _ _ _ skipped]
    exact ⟨_, rfl⟩

theorem NotCr.append_left {bytes : List UInt8} (notCr : NotCr bytes) (front : List UInt8)
    (present : bytes ≠ []) : NotCr (front ++ bytes) := by
  rw [NotCr, List.getLast?_append_of_ne_nil _ present]
  exact notCr

theorem settles_atEnd {pad : List UInt8} (notCr : NotCr (mark :: pad)) (self : HeaderMap)
    {otherwise : Parser HeaderMap}
    (settles : Settles (AtHeaders pad) otherwise (EndsIn (lineEnd pad))) :
    Settles (AtHeaders pad) (self.atEnd otherwise) (EndsIn (lineEnd pad)) := by
  intro past input starts
  have notCr' : NotCr input := by
    rcases starts with ⟨front, rfl⟩ | rfl
    · rw [lineEnd, ← List.cons_append, ← List.append_assoc]
      exact notCr.append_left _ (List.cons_ne_nil _ _)
    · exact notCr
  by_cases found : crlf <+: input
  · right
    refine ⟨crlf.length, self, headerMap_atEnd_found self otherwise past input notCr' found, ?_⟩
    obtain ⟨rest, rfl⟩ := found
    rw [List.drop_left]
    rcases starts with ends | same
    · rcases settles_crlf pad past _ ends with ⟨_, failed⟩ | ⟨_, _, taken, after⟩
      · rw [matchStr_found] at failed
        contradiction
      · rw [matchStr_found] at taken
        cases taken
        rwa [List.drop_left] at after
    · exact absurd (List.cons.inj same).1 (by decide)
  · rw [headerMap_atEnd_otherwise self otherwise past input notCr' found]
    exact settles past input starts

theorem settles_headerMapLoop {pad : List UInt8} (notCr : NotCr (mark :: pad)) (left : Nat)
    (self : HeaderMap) (sum : self.headers.length + left = headerMapCapacity) :
    Settles (AtHeaders pad) (HeaderMap.parseLoop left self sum) (EndsIn (lineEnd pad)) := by
  induction left generalizing self with
  | zero => exact settles_atEnd notCr self (settles_fail _)
  | succ left ih => exact settles_atEnd notCr self ((settles_header pad).bind fun _ => ih _ _)

/-! ## Interleaved frames -/

theorem frame_filled (input : List UInt8) (dollar : input.head? = some '$'.toUInt8)
    (short : input.length < interleavedHeaderSize +
      interleavedPayloadLen (input ++ List.replicate interleavedHeaderSize 0)) :
    ∃ fill, fill.length < 65540 ∧ Frames (input ++ fill) := by
  generalize payload : interleavedPayloadLen (input ++ List.replicate interleavedHeaderSize 0) =
    payloadLen at short
  have bound : payloadLen < 65536 := by
    rw [← payload]
    exact UInt16.toNat_lt _
  have size : interleavedHeaderSize = 4 := rfl
  have same : (input ++ List.replicate (interleavedHeaderSize + payloadLen - input.length) 0).take
      interleavedHeaderSize =
        (input ++ List.replicate interleavedHeaderSize 0).take interleavedHeaderSize := by
    rw [List.take_append, List.take_append, List.take_replicate, List.take_replicate]
    congr 2
    omega
  refine ⟨List.replicate (interleavedHeaderSize + payloadLen - input.length) 0, ?_, ?_⟩
  · rw [List.length_replicate]
    omega
  · rw [← List.append_nil (input ++ _)]
    refine Frames.some _ [] ?_ ?_ Frames.none
    · rw [List.head?_append, dollar]
      rfl
    · rw [interleavedPayloadLen_congr same, payload, List.length_append, List.length_replicate]
      omega

theorem frames_or_fill (input : List UInt8) :
    (∃ frames rest, input = frames ++ rest ∧ Frames frames ∧ rest.head? ≠ some '$'.toUInt8) ∨
      ∃ fill, fill.length < 65540 ∧ Frames (input ++ fill) := by
  induction size : input.length using Nat.strong_induction_on generalizing input with
  | _ count ih =>
      by_cases dollar : input.head? = some '$'.toUInt8
      · by_cases short : input.length < interleavedHeaderSize +
            interleavedPayloadLen (input ++ List.replicate interleavedHeaderSize 0)
        · exact .inr (frame_filled input dollar short)
        · generalize payload : interleavedPayloadLen
            (input ++ List.replicate interleavedHeaderSize 0) = payloadLen at short
          have four : interleavedHeaderSize = 4 := rfl
          have length : (input.take (interleavedHeaderSize + payloadLen)).length =
              interleavedHeaderSize + payloadLen := by
            rw [List.length_take]
            omega
          have front : interleavedPayloadLen (input.take (interleavedHeaderSize + payloadLen)) =
              payloadLen := by
            rw [← payload]
            apply interleavedPayloadLen_congr
            rw [payload, List.take_take, List.take_append_of_le_length (by omega)]
            congr 1
            omega
          have head : (input.take (interleavedHeaderSize + payloadLen)).head? =
              some '$'.toUInt8 := by
            rw [List.head?_take, if_neg (by omega), dollar]
          have whole := List.take_append_drop (interleavedHeaderSize + payloadLen) input
          rcases ih _ (by rw [List.length_drop]; omega)
            (input.drop (interleavedHeaderSize + payloadLen)) rfl with
            ⟨frames, rest, split_, framed, other⟩ | ⟨fill, small, framed⟩
          · left
            refine ⟨_, rest, ?_, Frames.some _ frames head ?_ framed, other⟩
            · rw [List.append_assoc, ← split_, whole]
            · rw [front, length]
          · right
            refine ⟨fill, small, ?_⟩
            rw [← whole, List.append_assoc]
            exact Frames.some _ _ head (by rw [front, length]) framed
      · exact .inl ⟨[], input, rfl, Frames.none, dollar⟩

/-! ## Dead ends -/

theorem finishMessage_waits {Line : Type} (startLine : Line) {map : HeaderMap}
    (past : Option UInt8) {rest value : List UInt8} {size : UInt64}
    (found : map.find headerContentLength = some value) (scan : scanSize value = some size)
    (short : rest.length < size.toNat) : finishMessage startLine map past rest = .Partial := by
  have length : contentLength map past rest = .Complete 0 size.toNat := by
    rw [contentLength, found]
    simp only [scan]
    rfl
  rw [finishMessage, bind_complete _ _ past rest _ _ length, List.drop_zero, shift_zero]
  exact bind_partial _ _ past rest (if_pos short)

theorem contentLength_cases (map : HeaderMap) (past : Option UInt8) (rest : List UInt8) :
    (∃ error, contentLength map past rest = .Failure error) ∨
      ∃ size, contentLength map past rest = .Complete 0 size ∧
        (size = 0 ∨ ∃ value number, map.find headerContentLength = some value ∧
          scanSize value = some number ∧ size = number.toNat) := by
  rw [contentLength]
  cases found : map.find headerContentLength with
  | none => exact .inr ⟨0, rfl, .inl rfl⟩
  | some value =>
      cases scan : scanSize value with
      | none =>
          left
          simp only [scan]
          exact ⟨_, rfl⟩
      | some number =>
          right
          simp only [scan]
          exact ⟨number.toNat, rfl, .inr ⟨value, number, rfl, scan, rfl⟩⟩

theorem finishMessage_settled {Line : Type} (startLine : Line) (map : HeaderMap)
    (past : Option UInt8) (rest : List UInt8)
    (enough : ∀ value size, map.find headerContentLength = some value →
      scanSize value = some size → size.toNat ≤ rest.length) :
    (finishMessage startLine map past rest).Settled := by
  have cseq : Settles (fun _ => True) (cseqNumber map) (fun _ => True) := by
    rw [cseqNumber]
    split
    · exact settles_fail _
    · exact settles_orFail _ _
  rcases contentLength_cases map past rest with ⟨error, failed⟩ | ⟨size, computed, origin⟩
  · rw [finishMessage, bind_apply, failed]
    trivial
  · have inside : size ≤ rest.length := by
      rcases origin with rfl | ⟨value, number, found, scan, rfl⟩
      · exact Nat.zero_le _
      · exact enough value number found scan
    rw [finishMessage, bind_complete _ _ past rest _ _ computed, List.drop_zero, settled_shift,
      bind_complete _ _ past rest _ _ (messageBody_found size past rest inside), settled_shift]
    exact (cseq.bind fun _ => settles_pure _).settled past _ trivial

/-- The header map is complete, and its content length asks for more bytes than an input of
less than 2^64 bytes has left. -/
def DeadEnd (LineBytes : List UInt8 → Prop) (input : List UInt8) : Prop :=
  ∃ frames line lines rest value size, Frames frames ∧ LineBytes line ∧
    lines.length ≤ headerMapCapacity ∧ input = messageBytes frames line lines rest ∧
    firstValue lines headerContentLength = some value ∧ scanSize value = some size ∧
    2 ^ 64 ≤ (frames ++ (line ++ (linesBytes lines ++ crlf))).length + size.toNat

/-- If the parser asks for more, there is more input that it answers. -/
def SettlesLater {Line : Type} (parser : Parser Line) (past : Option UInt8) (input : List UInt8) :
    Prop :=
  parser past input = .Partial →
    ∃ more, (input ++ more).length < 2 ^ 64 ∧ ∀ past', (parser past' (input ++ more)).Settled

theorem messageBytes_append (frames line : List UInt8) (lines : List NameLine)
    (rest more : List UInt8) : messageBytes frames line lines rest ++ more =
      messageBytes frames line lines (rest ++ more) := by
  simp only [messageBytes, List.append_assoc]

section

variable {Line : Type} {parseLine : Parser Line} {slash : Parser (List UInt8)}
  {Slash LineBytes : List UInt8 → Prop} (starts : StartsMessage parseLine slash Slash LineBytes)

include starts

/-- Whatever follows a dead end, the parser asks for more. -/
theorem deadEnd_waits {input : List UInt8} (dead : DeadEnd LineBytes input) (more : List UInt8)
    (fits : (input ++ more).length < 2 ^ 64) (past : Option UInt8) :
    parseMessage parseLine past (input ++ more) = .Partial := by
  obtain ⟨frames, line, lines, rest, value, size, framed, bytes, room, rfl, found, scan, long⟩ :=
    dead
  rw [messageBytes_append] at fits ⊢
  have short : (rest ++ more).length < size.toNat := by
    simp only [messageBytes, List.length_append] at fits long ⊢
    omega
  by_cases notCr : NotCr (crlf ++ (rest ++ more))
  · obtain ⟨startLine, named⟩ := message_named starts past framed bytes (rest ++ more) notCr
    obtain ⟨map, headers, parsed⟩ := (named lines).1 room
    rw [← find_eq_firstValue headers] at found
    rw [parsed, finishMessage_waits startLine past found scan short]
    rfl
  · obtain ⟨startLine, upTo⟩ := message_upTo starts past framed bytes
    have cr : (linesBytes lines ++ (crlf ++ (rest ++ more))).getLast? = some '\r'.toUInt8 := by
      rw [List.getLast?_append, not_not.mp notCr]
      rfl
    rw [messageBytes, upTo, bind_partial _ _ past _ (headerMap_cr_waits past _ cr)]
    rfl

variable (settles : ∀ pad, Settles (EndsIn (stopper pad)) parseLine (AtHeaders pad))

include settles

/-- With the end that no field takes behind it, an input is answered, or its body is longer
than what is there. -/
theorem stopper_settles {frames rest pad : List UInt8} (framed : Frames frames)
    (other : rest.head? ≠ some '$'.toUInt8) (notCr : NotCr (mark :: pad)) (past : Option UInt8) :
    (parseMessage parseLine past (frames ++ (rest ++ stopper pad))).Settled ∨
      ∃ line lines back value size, LineBytes line ∧ lines.length ≤ headerMapCapacity ∧
        rest ++ stopper pad = line ++ (linesBytes lines ++ (crlf ++ (back ++ lineEnd pad))) ∧
        firstValue lines headerContentLength = some value ∧ scanSize value = some size ∧
        (back ++ lineEnd pad).length < size.toNat := by
  have enough : interleavedHeaderSize ≤ (rest ++ stopper pad).length := by
    simp only [stopper, lineEnd, List.length_append, List.length_cons]
    rw [interleavedHeaderSize]
    omega
  have head : (rest ++ stopper pad).head? ≠ some '$'.toUInt8 := by
    cases rest with
    | nil =>
        rw [List.nil_append, stopper, List.head?_cons]
        decide
    | cons c rest => exact other
  rw [parseMessage, bind_complete _ _ past _ _ _ (skipInterleaved_found past framed _ enough head),
    List.drop_left, settled_shift]
  rcases settles pad past _ (List.suffix_append rest _) with
    ⟨error, failed⟩ | ⟨taken, startLine, accepted, atHeaders⟩
  · left
    rw [bind_apply, failed]
    trivial
  rw [bind_complete _ _ past _ _ _ accepted, settled_shift]
  have loop := settles_headerMapLoop notCr headerMapCapacity HeaderMap.empty (Nat.zero_add _)
  rcases loop past _ atHeaders with ⟨error, failed⟩ | ⟨mapped, map, parsed, ends⟩
  · left
    have refused : HeaderMap.parse past ((rest ++ stopper pad).drop taken) =
      .Failure error := failed
    rw [bind_apply, refused]
    trivial
  have complete : HeaderMap.parse past ((rest ++ stopper pad).drop taken) =
    .Complete mapped map := parsed
  rw [bind_complete _ _ past _ _ _ complete, settled_shift]
  obtain ⟨lines, after, layout, rfl, headers⟩ := headerMapLoop_accepts _ _ _ past _ _ _ parsed
  have room : lines.length ≤ headerMapCapacity := by
    have within := map.bounded
    rw [headers, List.length_append, List.length_map] at within
    exact Nat.le_trans (Nat.le_add_left _ _) within
  rw [layout, ← List.append_assoc, List.drop_left] at ends ⊢
  obtain ⟨back, rfl⟩ := ends
  by_cases long : ∃ value size, map.find headerContentLength = some value ∧
      scanSize value = some size ∧ (back ++ lineEnd pad).length < size.toNat
  · right
    obtain ⟨value, size, found, scan, short⟩ := long
    rw [find_eq_firstValue headers] at found
    refine ⟨_, lines, back, value, size, starts.taken accepted, room, ?_, found, scan, short⟩
    rw [← layout, List.take_append_drop]
  · left
    apply finishMessage_settled startLine map
    intro value size found scan
    by_contra short
    exact long ⟨value, size, found, scan, Nat.lt_of_not_le short⟩

/-- In front of bytes that start no frame, only a dead end is never answered. -/
theorem settlesLater_unframed {frames rest : List UInt8} (framed : Frames frames)
    (other : rest.head? ≠ some '$'.toUInt8) (room : (frames ++ rest).length + 6 < 2 ^ 64)
    (alive : ¬ DeadEnd LineBytes (frames ++ rest)) :
    ∃ more, (frames ++ rest ++ more).length < 2 ^ 64 ∧
      ∀ past, (parseMessage parseLine past (frames ++ rest ++ more)).Settled := by
  -- The longest input there can be, so that only a body that can never come is missing.
  generalize free : 2 ^ 64 - 7 - (frames ++ rest).length = count
  have total : (frames ++ rest ++ stopper (List.replicate count mark)).length = 2 ^ 64 - 1 := by
    rw [List.length_append, stopper_length, List.length_replicate]
    omega
  refine ⟨stopper (List.replicate count mark), by omega, fun past => ?_⟩
  rw [List.append_assoc]
  rcases stopper_settles starts settles framed other (pad_notCr count) past with
    settled | ⟨line, lines, back, value, size, bytes, few, layout, found, scan, short⟩
  · exact settled
  · exfalso
    apply alive
    have cut : line ++ (linesBytes lines ++ crlf) ++ back = rest ++ [mark, ' '.toUInt8] := by
      apply (List.append_left_inj (lineEnd (List.replicate count mark))).mp
      simp only [List.append_assoc]
      exact layout.symm
    have ends : (line ++ (linesBytes lines ++ crlf)).getLast? = some '\n'.toUInt8 := by
      rw [← List.append_assoc]
      exact getLast?_of_suffix rfl (List.suffix_append _ crlf)
    obtain ⟨after, rfl⟩ := line_inside ends cut
    refine ⟨frames, line, lines, after, value, size, framed, bytes, few, ?_, found, scan, ?_⟩
    · simp only [messageBytes, List.append_assoc]
    · have size' := congrArg List.length layout
      simp only [List.length_append] at size' total short ⊢
      omega

variable (refuses : ∀ past, ∃ error, parseLine past (stopper []) = .Failure error)

include refuses

theorem settlesLater_iff (past : Option UInt8) (input : List UInt8)
    (room : input.length + 2 ^ 17 ≤ 2 ^ 64) :
    SettlesLater (parseMessage parseLine) past input ↔ ¬ DeadEnd LineBytes input := by
  constructor
  · intro later dead
    have waits := deadEnd_waits starts dead [] (by rw [List.append_nil]; omega) past
    rw [List.append_nil] at waits
    obtain ⟨more, fits, settled⟩ := later waits
    have answered := settled past
    rw [deadEnd_waits starts dead more fits past] at answered
    exact answered
  · intro alive _
    rcases frames_or_fill input with ⟨frames, rest, rfl, framed, other⟩ | ⟨fill, small, framed⟩
    · exact settlesLater_unframed starts settles framed other (by omega) alive
    · refine ⟨fill ++ stopper [], ?_, fun past' => ?_⟩
      · rw [List.length_append, List.length_append, stopper_length, List.length_nil]
        omega
      · obtain ⟨error, failed⟩ := refuses past'
        rw [← List.append_assoc, parseMessage, bind_complete _ _ past' _ _ _
          (skipInterleaved_found past' framed _ (by decide) (by decide)), List.drop_left,
          settled_shift, bind_apply, failed]
        trivial

end

/-- With room for some more bytes, the parsers can be brought to an answer exactly on the
inputs that are no dead end. -/
theorem messages_settleLater_iff (past : Option UInt8) (input : List UInt8)
    (room : input.length + 2 ^ 17 ≤ 2 ^ 64) :
    (SettlesLater Request.parse past input ↔ ¬ DeadEnd RequestLineBytes input) ∧
      (SettlesLater Response.parse past input ↔ ¬ DeadEnd ResponseLineBytes input) := by
  constructor
  · exact settlesLater_iff requestLine_starts settles_requestLine (fun _ => ⟨_, rfl⟩) past input
      room
  · exact settlesLater_iff responseLine_starts settles_responseLine (fun _ => ⟨_, rfl⟩) past input
      room

def sizedRequest (number : String) : List UInt8 :=
  charSlice "OPTIONS * RTSP/1.0\r\nContent-Length: " ++ (charSlice number ++
    charSlice "\r\nCSeq: 1\r\n\r\n")

theorem sizedRequest_settles :
    (SettlesLater Request.parse none (sizedRequest "5") ↔
        ¬ DeadEnd RequestLineBytes (sizedRequest "5")) ∧
      (SettlesLater Response.parse none (sizedRequest "5") ↔
        ¬ DeadEnd ResponseLineBytes (sizedRequest "5")) :=
  messages_settleLater_iff none (sizedRequest "5") (by decide)

def lengthLine : NameLine where
  lead := []
  key := headerContentLength
  tail := charSlice ": -1"
  blank := blank_nil
  name := ⟨List.cons_ne_nil _ _, List.all_eq_true.mp rfl⟩
  stops := ⟨_, _, rfl, rfl⟩
  clean := by decide

/-- A negative content length asks for nearly 2^64 bytes. -/
theorem negative_length_waits :
    Request.parse none (sizedRequest "-1") = .Partial ∧
      (∀ more, (sizedRequest "-1" ++ more).length < 2 ^ 64 →
        ∀ past, Request.parse past (sizedRequest "-1" ++ more) = .Partial) ∧
      ¬ SettlesLater Request.parse none (sizedRequest "-1") := by
  have line : RequestLineBytes (charSlice "OPTIONS * RTSP/1.0\r\n") :=
    (consumes_requestLine none _).mp ⟨_, rfl⟩
  have dead : DeadEnd RequestLineBytes (sizedRequest "-1") := by
    refine ⟨[], _, [lengthLine, cseqLine], [], charSlice "-1", -1, Frames.none, line, ?_, rfl, rfl,
      rfl, ?_⟩ <;> decide
  have waits (more : List UInt8) (fits : (sizedRequest "-1" ++ more).length < 2 ^ 64)
      (past : Option UInt8) : Request.parse past (sizedRequest "-1" ++ more) = .Partial :=
    deadEnd_waits requestLine_starts dead more fits past
  have first : Request.parse none (sizedRequest "-1") = .Partial := by
    have here := waits [] (by decide) none
    rwa [List.append_nil] at here
  refine ⟨first, waits, ?_⟩
  intro later
  obtain ⟨more, fits, settled⟩ := later first
  have answered := settled none
  rw [waits more fits none] at answered
  exact answered

end Compy.Rtsp
