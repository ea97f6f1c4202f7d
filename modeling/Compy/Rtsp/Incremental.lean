import Compy.Rtsp.Grammar

/-!
# Messages in pieces

A message that has been accepted is accepted again from its own bytes, whatever
follows them, and its proper prefixes wait for more.  There are three exceptions:
the byte that the version looks at behind `RTSP/` need not belong to the input,
the header map fails where it is cut behind its last header, and it looks at the
very end of the input for a carriage return.
-/

set_option autoImplicit false

namespace Compy.Rtsp

open IncrementalParsing

theorem messageBody_complete (contentLength : Nat) (past : Option UInt8) (input : List UInt8)
    (offset : Nat) (value : List UInt8)
    (accepted : MessageBody.parse contentLength past input = .Complete offset value) :
    contentLength ≤ input.length ∧ offset = contentLength ∧ value = input.take contentLength := by
  rw [MessageBody.parse] at accepted
  split at accepted
  · contradiction
  · rename_i enough
    refine ⟨Nat.le_of_not_lt enough, ?_⟩
    split at accepted
    · rename_i nothing
      cases accepted
      rw [nothing, List.take_zero]
      exact ⟨rfl, rfl⟩
    · cases accepted
      exact ⟨rfl, rfl⟩

theorem messageBody_found (contentLength : Nat) (past : Option UInt8) (input : List UInt8)
    (enough : contentLength ≤ input.length) :
    MessageBody.parse contentLength past input =
      .Complete contentLength (input.take contentLength) := by
  rw [MessageBody.parse, if_neg (Nat.not_lt.mpr enough)]
  split
  · rename_i nothing
    rw [nothing, List.take_zero]
  · rfl

theorem decides_messageBody {Among : List UInt8 → Prop} (contentLength : Nat) :
    Decides Among Never 0 (MessageBody.parse contentLength) where
  inside past input offset value accepted := by
    obtain ⟨enough, rfl, _⟩ := messageBody_complete contentLength past input offset value accepted
    exact enough
  stable past input offset value accepted past' other starts _ := by
    obtain ⟨enough, rfl, rfl⟩ := messageBody_complete contentLength past input offset value accepted
    obtain ⟨tail, rfl⟩ := starts
    have length : (input.take offset).length = offset := by
      rw [List.length_take, Nat.min_eq_left enough]
    rw [Nat.add_zero, messageBody_found offset past' _ (by rw [List.length_append]; omega),
      List.take_left' length]
  waits past input offset value accepted past' other _ short _ _ := by
    obtain ⟨_, rfl, _⟩ := messageBody_complete contentLength past input offset value accepted
    exact if_pos short
  stops _ _ _ stuck := stuck.elim

theorem still_contentLength (headerMap : HeaderMap) : Still (contentLength headerMap) := by
  rw [contentLength]
  split
  · exact still_pure 0
  · exact still_orFail _ _

theorem still_cseqNumber (headerMap : HeaderMap) : Still (cseqNumber headerMap) := by
  rw [cseqNumber]
  split
  · exact Or.inr ⟨_, rfl⟩
  · exact still_orFail _ _

/-- What is left to do behind the header map. -/
def finishMessage {Line : Type} (startLine : Line) (headerMap : HeaderMap) :
    Parser (Message Line) := do
  let contentLengthInt ← contentLength headerMap
  let body ← MessageBody.parse contentLengthInt
  let cseq ← cseqNumber headerMap
  pure { startLine := startLine, headerMap := headerMap, body := body, cseq := cseq }

/-- The parts that an accepted message is read in. -/
theorem message_complete {Line : Type} {parseLine : Parser Line} {past : Option UInt8}
    {input : List UInt8} {offset : Nat} {message : Message Line}
    (accepted : parseMessage parseLine past input = .Complete offset message) :
    ∃ frames rest taken startLine mapped map own, input = frames ++ rest ∧ Frames frames ∧
      parseLine past rest = .Complete taken startLine ∧
      HeaderMap.parse past (rest.drop taken) = .Complete mapped map ∧
      finishMessage startLine map past ((rest.drop taken).drop mapped) = .Complete own message := by
  obtain ⟨skipped, _, _, skip, afterSkip, _⟩ :=
    (bind_eq_complete _ _ past input offset message).mp accepted
  obtain ⟨frames, rest, rfl, rfl, framed, _, _⟩ := skipInterleaved_complete past input skipped _ skip
  rw [List.drop_left] at afterSkip
  obtain ⟨taken, startLine, _, read, afterLine, _⟩ :=
    (bind_eq_complete _ _ past _ _ message).mp afterSkip
  obtain ⟨mapped, map, own, parsed, finished, _⟩ :=
    (bind_eq_complete _ _ past _ _ message).mp afterLine
  exact ⟨frames, rest, taken, startLine, mapped, map, own, rfl, framed, read, parsed, finished⟩

theorem decides_finishMessage {Among : List UInt8 → Prop} {Line : Type} (startLine : Line)
    (headerMap : HeaderMap) : Decides Among Never 0 (finishMessage startLine headerMap) := by
  refine Decides.still_bind (still_contentLength headerMap) fun length => ?_
  refine (decides_messageBody length).bind_still fun body => ?_
  exact (still_cseqNumber headerMap).bind fun _ => still_pure _

theorem message_unframed {Line : Type} (parseLine : Parser Line) (past : Option UInt8)
    (input : List UInt8) (enough : interleavedHeaderSize ≤ input.length)
    (other : input.head? ≠ some '$'.toUInt8) :
    parseMessage parseLine past input = (do
      let startLine ← parseLine
      let headerMap ← HeaderMap.parse
      finishMessage startLine headerMap) past input := by
  rw [parseMessage, bind_complete skipInterleaved _ past input 0 ()
    (skipInterleaved_message past input enough other), List.drop_zero, shift_zero]
  rfl

/-- The input ends with the slash of a start line, and no digit lies behind it. -/
def CutBehindSlash (Slash : List UInt8 → Prop) (past : Option UInt8) (input : List UInt8) :
    Prop :=
  (∃ frames start, input = frames ++ start ∧ Frames frames ∧ Slash start) ∧ NoDigit past

/-- The input ends with as many headers as the map holds. -/
def CutBehindHeaders (LineBytes : List UInt8 → Prop) (input : List UInt8) : Prop :=
  ∃ frames rest, input = frames ++ rest ∧ Frames frames ∧
    ∃ line lines, rest = line ++ lines ∧ LineBytes line ∧ HeaderLines headerMapCapacity lines

/-- What the two start lines have in common. -/
structure StartsMessage {Line : Type} (parseLine : Parser Line) (slash : Parser (List UInt8))
    (Slash LineBytes : List UInt8 → Prop) : Prop where
  closes : ∀ Among : List UInt8 → Prop,
    (∀ input count, Among input → Among (input.drop count)) →
      Closes Among (fun past input => Consumes slash past input ∧ NoDigit past) parseLine
  long : TakesAtLeast interleavedHeaderSize parseLine
  slash_long : TakesAtLeast interleavedHeaderSize slash
  slash_ends : EndsWith '/'.toUInt8 slash
  slash_iff : ∀ past bytes, Consumes slash past bytes ↔ Slash bytes
  line_iff : ∀ past bytes, Consumes parseLine past bytes ↔ LineBytes bytes
  slash_unframed : ∀ bytes, Slash bytes → StopsAt isDollar bytes
  line_unframed : ∀ bytes, LineBytes bytes → StopsAt isDollar bytes

theorem takes_slash : TakesAtLeast interleavedHeaderSize RtspVersion.slash :=
  TakesAtLeast.bind_second _ fun _ past input offset value accepted =>
    Nat.le_trans (by decide) (takes_matchStr rtspSlash past input offset value accepted)

theorem takes_version : TakesAtLeast interleavedHeaderSize RtspVersion.parse := by
  rw [rtspVersion_eq]
  exact takes_slash.bind_first _

theorem ends_slash : EndsWith '/'.toUInt8 RtspVersion.slash :=
  EndsWith.bind _ fun _ => ends_matchStr rfl

theorem requestLine_starts :
    StartsMessage RequestLine.parse RequestLine.slash RequestSlash RequestLineBytes where
  closes _ dropped := closes_requestLine dropped
  long := TakesAtLeast.bind_second _ fun _ => TakesAtLeast.bind_second _ fun _ =>
    takes_version.bind_first _
  slash_long := TakesAtLeast.bind_second _ fun _ => TakesAtLeast.bind_second _ fun _ => takes_slash
  slash_ends := EndsWith.bind _ fun _ => EndsWith.bind _ fun _ => ends_slash
  slash_iff := consumes_requestSlash
  line_iff := consumes_requestLine
  slash_unframed _ := requestSlash_unframed
  line_unframed := by
    rintro _ ⟨start, numbers, rfl, slash, _⟩
    exact stopsAt_append _ (requestSlash_unframed slash)

theorem responseLine_starts :
    StartsMessage ResponseLine.parse RtspVersion.slash VersionSlash ResponseLineBytes where
  closes _ dropped := closes_responseLine dropped
  long := takes_version.bind_first _
  slash_long := takes_slash
  slash_ends := ends_slash
  slash_iff := consumes_versionSlash
  line_iff := consumes_responseLine
  slash_unframed _ := versionSlash_unframed
  line_unframed := by
    rintro _ ⟨start, _, _, _, _, rfl, slash, _⟩
    exact stopsAt_append _ (versionSlash_unframed slash)

theorem getLast?_drop_of_ne_nil {input : List UInt8} {count : Nat} (left : input.drop count ≠ []) :
    (input.drop count).getLast? = input.getLast? := by
  rw [List.getLast?_drop, if_neg fun outside => left (List.drop_eq_nil_of_le outside)]

theorem message_notCr {Line : Type} (parseLine : Parser Line) (past : Option UInt8)
    (input : List UInt8) (offset : Nat) (message : Message Line)
    (accepted : parseMessage parseLine past input = .Complete offset message) : NotCr input := by
  obtain ⟨frames, rest, taken, _, mapped, map, _, rfl, _, _, parsed, _⟩ := message_complete accepted
  have notCr := headerMap_notCr past _ mapped map parsed
  have behind : rest.drop taken = (frames ++ rest).drop (frames.length + taken) :=
    (List.drop_length_add_append taken).symm
  rw [behind] at notCr parsed
  have left : (frames ++ rest).drop (frames.length + taken) ≠ [] := by
    intro nothing
    rw [nothing, headerMap_waits] at parsed
    contradiction
  rwa [NotCr, getLast?_drop_of_ne_nil left] at notCr

theorem ends_headerLines (count : Nat) : EndsWith '\n'.toUInt8 (headerLines (count + 1)) := by
  have header := (@closes_header (fun _ => True) fun _ _ _ => trivial).ends
  induction count with
  | zero => exact header.bind_still fun _ => still_pure ()
  | succ count ih => exact EndsWith.bind _ fun _ => ih

section

variable {Line : Type} {parseLine : Parser Line} {slash : Parser (List UInt8)}
  {Slash LineBytes : List UInt8 → Prop} (line : StartsMessage parseLine slash Slash LineBytes)

include line

theorem consumes_slash_iff (past : Option UInt8) (input : List UInt8) :
    Consumes (skipInterleaved >>= fun _ => slash) past input ↔
      ∃ frames start, input = frames ++ start ∧ Frames frames ∧ Slash start :=
  consumes_skipInterleaved slash Slash past (line.slash_iff past) line.slash_long
    line.slash_unframed input

theorem consumes_headers_iff (past : Option UInt8) (input : List UInt8) :
    Consumes (skipInterleaved >>= fun _ => parseLine >>= fun _ => headerLines headerMapCapacity)
      past input ↔ CutBehindHeaders LineBytes input := by
  have everywhere := (line.closes (fun _ => True) fun _ _ _ => trivial).decides
  refine consumes_skipInterleaved _ _ past (fun rest => ?_) (line.long.bind_first _) ?_ input
  · rw [everywhere.consumes_append_iff]
    simp only [line.line_iff, consumes_headerLines_iff]
  · rintro _ ⟨start, lines, rfl, bytes, _⟩
    exact stopsAt_append lines (line.line_unframed start bytes)

theorem decides_message :
    Decides NotCr (fun past input => CutBehindSlash Slash past input ∨
      CutBehindHeaders LineBytes input) 0 (parseMessage parseLine) := by
  refine (Decides.bind NotCr.drop decides_skipInterleaved (fun _ =>
    Decides.bind NotCr.drop (line.closes NotCr NotCr.drop).decides (fun startLine =>
    Decides.bind NotCr.drop decides_headerMap (fun headerMap =>
      decides_finishMessage startLine headerMap) ?_) ?_) ?_).congr ?_
  · exact fun _ _ _ _ _ _ => Nat.zero_le _
  · exact fun _ _ _ _ _ _ => Nat.zero_le _
  · intro _ past input offset _ accepted
    exact line.long.bind_first _ past input offset _ accepted
  · intro past input
    have skipped := (@decides_skipInterleaved NotCr).within past input
    have read := (line.closes NotCr NotCr.drop).decides.within past
    rw [CutBehindSlash, ← consumes_slash_iff line past, ← consumes_headers_iff line past,
      consumes_bind _ _ past input skipped, consumes_bind _ _ past input skipped]
    constructor
    · intro cut
      rcases cut with ⟨⟨offset, _, skip, atSlash⟩, noDigit⟩ | ⟨offset, _, skip, headers⟩
      · exact Or.inr ⟨offset, _, skip, Or.inl ⟨atSlash, noDigit⟩⟩
      · obtain ⟨taken, startLine, accepted, headers⟩ :=
          (consumes_bind _ _ past _ (read _)).mp headers
        exact Or.inr ⟨offset, _, skip, Or.inr ⟨taken, startLine, accepted,
          (bindStuck_first _ past _).mpr headers⟩⟩
    · intro stuck
      rcases stuck with never | ⟨offset, _, skip, ⟨atSlash, noDigit⟩ | ⟨taken, startLine, accepted,
        headers⟩⟩
      · exact never.elim
      · exact Or.inl ⟨⟨offset, _, skip, atSlash⟩, noDigit⟩
      · exact Or.inr ⟨offset, _, skip, (consumes_bind _ _ past _ (read _)).mpr
          ⟨taken, startLine, accepted, (bindStuck_first _ past _).mp headers⟩⟩

/-- A prefix that ends with a carriage return is never stuck: it waits in the
start line, or in the header map that looks at its end. -/
theorem message_cr_waits (past past' : Option UInt8) (input other : List UInt8) (offset : Nat)
    (message : Message Line)
    (accepted : parseMessage parseLine past input = .Complete offset message)
    (starts : other <+: input) (cr : other.getLast? = some '\r'.toUInt8) :
    parseMessage parseLine past' other = .Partial := by
  obtain ⟨skipped, _, _, skip, afterSkip, _⟩ :=
    (bind_eq_complete _ _ past input offset message).mp accepted
  obtain ⟨taken, startLine, _, read, _, _⟩ := (bind_eq_complete _ _ past _ _ message).mp afterSkip
  have everywhere := line.closes (fun _ => True) fun _ _ _ => trivial
  have apart {last : UInt8} (count : Nat) (final : (other.drop count).getLast? = some last)
      (differ : last ≠ '\r'.toUInt8) : False := by
    rw [getLast?_drop_of_ne_nil fun empty => by rw [empty] at final; contradiction, cr] at final
    exact differ (Option.some.inj final).symm
  refine (@decides_skipInterleaved fun _ => True).bind_waits _ past past' input other skipped _ skip
    starts trivial (fun never => never) fun _ => ?_
  refine everywhere.decides.bind_waits _ past past' _ (other.drop skipped) taken startLine read
    (prefix_drop starts skipped) trivial ?_ fun readAgain => ?_
  · intro stuck
    exact apart skipped (stuck.1.getLast? line.slash_ends) (by decide)
  · refine bind_partial _ _ past' _ (headerMap_cr_waits past' _ ?_)
    rw [List.drop_drop]
    have more : other.drop (skipped + taken) ≠ [] := by
      intro nothing
      have whole : Consumes parseLine past' (other.drop skipped) := by
        rw [consumes_iff _ _ _ (everywhere.decides.within past' _)]
        exact ⟨taken, startLine, readAgain, by rw [List.drop_drop, nothing]⟩
      exact apart skipped (whole.getLast? everywhere.ends) (by decide)
    rw [getLast?_drop_of_ne_nil more, cr]

theorem message_prefix_iff (past past' : Option UInt8) (input other : List UInt8) (offset : Nat)
    (message : Message Line)
    (accepted : parseMessage parseLine past input = .Complete offset message)
    (starts : other <+: input.take offset) (short : other.length < offset) :
    parseMessage parseLine past' other = .Partial ↔
      ¬ (CutBehindSlash Slash past' other ∨ CutBehindHeaders LineBytes other) := by
  have within := starts.trans (List.take_prefix offset input)
  by_cases notCr : NotCr other
  · exact (decides_message line).partial_iff past past' input other offset message accepted within
      short notCr
  · have cr := not_not.mp notCr
    refine iff_of_true (message_cr_waits line past past' input other offset message accepted within
      cr) ?_
    rw [CutBehindSlash, ← consumes_slash_iff line past', ← consumes_headers_iff line past']
    rintro (⟨atSlash, _⟩ | atHeaders)
    · have final := atSlash.getLast? (EndsWith.bind _ fun _ => line.slash_ends)
      rw [cr] at final
      exact absurd (Option.some.inj final) (by decide)
    · have final := atHeaders.getLast? (EndsWith.bind _ fun _ => EndsWith.bind _ fun _ =>
        ends_headerLines 31)
      rw [cr] at final
      exact absurd (Option.some.inj final) (by decide)

theorem message_followed_iff (past past' : Option UInt8) (input after : List UInt8) (offset : Nat)
    (message : Message Line)
    (accepted : parseMessage parseLine past input = .Complete offset message) :
    parseMessage parseLine past' (input.take offset ++ after) = .Complete offset message ↔
      NotCr (input.take offset ++ after) := by
  constructor
  · exact message_notCr parseLine past' _ offset message
  · exact (decides_message line).stable past input offset message accepted past' _
      (List.prefix_append _ _)

end

/-- What a message parser decides on once it has accepted a message: it waits on
the proper prefixes but for those that are `Cut`, and accepts whatever the message
is followed by but for a final carriage return. -/
def StableBut {Line : Type} (Cut : Option UInt8 → List UInt8 → Prop)
    (parse : Parser (Message Line)) (past past' : Option UInt8) (input : List UInt8) : Prop :=
  ∀ offset message, parse past input = .Complete offset message →
    (∀ other, other <+: input.take offset → other.length < offset →
      (parse past' other = .Partial ↔ ¬ Cut past' other)) ∧
    ∀ after, parse past' (input.take offset ++ after) = .Complete offset message ↔
      NotCr (input.take offset ++ after)

theorem StartsMessage.stable {Line : Type} {parseLine : Parser Line}
    {slash : Parser (List UInt8)} {Slash LineBytes : List UInt8 → Prop}
    (line : StartsMessage parseLine slash Slash LineBytes) (past past' : Option UInt8)
    (input : List UInt8) :
    StableBut (fun past other => CutBehindSlash Slash past other ∨ CutBehindHeaders LineBytes other)
      (parseMessage parseLine) past past' input :=
  fun offset message accepted =>
    ⟨fun other => message_prefix_iff line past past' input other offset message accepted,
      fun after => message_followed_iff line past past' input after offset message accepted⟩

theorem incremental_iff (past past' : Option UInt8) (input : List UInt8) :
    StableBut (fun past other => CutBehindSlash RequestSlash past other ∨
        CutBehindHeaders RequestLineBytes other) Request.parse past past' input ∧
      StableBut (fun past other => CutBehindSlash VersionSlash past other ∨
        CutBehindHeaders ResponseLineBytes other) Response.parse past past' input :=
  ⟨requestLine_starts.stable past past' input, responseLine_starts.stable past past' input⟩

def optionsBytes : List UInt8 := charSlice "OPTIONS * RTSP/1.0\r\nCSeq: 1\r\n\r\n"

theorem oneHeader_bounded :
    [Header.mk headerCSeq (charSlice "1")].length ≤ headerMapCapacity := by decide

def optionsRequest : Request where
  startLine := { method := charSlice "OPTIONS", uri := charSlice "*", version := ⟨1, 0⟩ }
  headerMap := ⟨[⟨headerCSeq, charSlice "1"⟩], oneHeader_bounded⟩
  body := []
  cseq := 1

theorem optionsBytes_accepted :
    Request.parse none optionsBytes = .Complete 31 optionsRequest := by
  rw [Request.parse, message_unframed _ none optionsBytes (by decide) (by decide)]
  rfl

theorem optionsBytes_stable :
    (∀ other, other <+: optionsBytes.take 31 → other.length < 31 →
      (Request.parse none other = .Partial ↔ ¬ (CutBehindSlash RequestSlash none other ∨
        CutBehindHeaders RequestLineBytes other))) ∧
    ∀ after, Request.parse none (optionsBytes.take 31 ++ after) =
      .Complete 31 optionsRequest ↔ NotCr (optionsBytes.take 31 ++ after) :=
  (incremental_iff none none optionsBytes).1 31 optionsRequest optionsBytes_accepted

/-- A carriage return behind the message, and a cut behind `RTSP/`. -/
theorem optionsBytes_unsettled :
    Request.parse none optionsBytes = .Complete 31 optionsRequest ∧
      Request.parse none (optionsBytes ++ charSlice "\r") = .Partial ∧
      Request.parse (some ' '.toUInt8) (optionsBytes.take 15) =
        .Failure (.TypeMismatch .Int []) := by
  refine ⟨optionsBytes_accepted, ?_, ?_⟩
  · rw [Request.parse, message_unframed _ none _ (by decide) (by decide)]
    rfl
  · rw [Request.parse, message_unframed _ _ _ (by decide) (by decide)]
    rfl

end Compy.Rtsp
