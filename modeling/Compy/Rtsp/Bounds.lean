import Compy.Library.ParserBounds
import Compy.Rtsp.Incremental

/-!
# Inside the input

Which bytes the parsers of requests and responses look at, and where the slices of an
accepted message lie.  The one look at a byte behind the input is that of the version
at an input that ends with `RTSP/`.
-/

set_option autoImplicit false

namespace Compy.Rtsp

open IncrementalParsing

/-! ## The slices of a message -/

def RequestLine.slices (self : RequestLine) : List (List UInt8) := [self.method, self.uri]

def ResponseLine.slices (self : ResponseLine) : List (List UInt8) := [self.reason]

def Header.slices (self : Header) : List (List UInt8) := [self.key, self.value]

def HeaderMap.slices (self : HeaderMap) : List (List UInt8) := self.headers.flatMap Header.slices

def Message.slices {Line : Type} (lineSlices : Line → List (List UInt8)) (self : Message Line) :
    List (List UInt8) :=
  lineSlices self.startLine ++ (self.headerMap.slices ++ [self.body])

/-- The slices of what the parser returns are cut out of the bytes it has taken. -/
def Cuts {α : Type} (slices : α → List (List UInt8)) (parser : Parser α) : Prop :=
  Yields (fun value bytes => InOrder (slices value) bytes) parser

def Itself (value bytes : List UInt8) : Prop := value = bytes

theorem Cuts.after {α γ : Type} {slices : γ → List (List UInt8)} {first : Parser α}
    {second : α → Parser γ} (inside : Yields (fun _ _ => True) first)
    (cuts : ∀ value, Cuts slices (second value)) : Cuts slices (first >>= second) :=
  inside.after cuts fun _ front _ order => order.behind front

theorem yields_matchUntil (matcher : UInt8 → Bool) : Yields Itself (matchUntil matcher) := by
  intro past input offset value accepted
  obtain ⟨rfl, _, c, rest, rfl, _⟩ := matchUntil_complete matcher past input offset value accepted
  rw [List.take_left]
  exact ⟨by rw [List.length_append]; omega, rfl⟩

theorem yields_matchSome (kind : ParseType) (matcher : UInt8 → Bool) :
    Yields Itself (matchSome kind matcher) := by
  intro past input offset value accepted
  exact yields_matchUntil matcher past input offset value
    (matchSome_complete kind matcher past input offset value accepted).1

theorem yields_matchUntilCrlf : Yields Itself matchUntilCrlf := by
  intro past input offset value accepted
  obtain ⟨i, first, rfl, rfl⟩ := (matchUntilStr_complete crlf_ne_nil past input _ _).mp accepted
  exact ⟨first.occurs.fits crlf_ne_nil, rfl⟩

theorem inside_matchUntil (matcher : UInt8 → Bool) :
    Yields (fun _ _ => True) (matchUntil matcher) :=
  (yields_matchUntil matcher).imp fun _ _ _ => trivial

theorem cuts_itself {parser : Parser (List UInt8)} (yields : Yields Itself parser) :
    Cuts (fun value => [value]) parser := by
  refine yields.imp fun value bytes same => ?_
  rw [same]
  have whole := InOrder.single bytes []
  rwa [List.append_nil] at whole

theorem cuts_method : Cuts (fun method => [method]) Method.parse :=
  Cuts.after (inside_matchUntil whitespaceMatcher) fun _ =>
    cuts_itself (yields_matchSome .Ident identMatcher)

theorem cuts_requestUri : Cuts (fun uri => [uri]) RequestUri.parse :=
  Cuts.after (inside_matchUntil whitespaceMatcher) fun _ =>
    cuts_itself (yields_matchUntil nonWhitespaceMatcher)

theorem cuts_line {α : Type} (made : List UInt8 → α) (slices : α → List (List UInt8))
    (same : ∀ line, slices (made line) = [withoutCrlf line]) :
    Cuts slices (matchUntilCrlf >>= fun line => pure (made line)) := by
  refine yields_matchUntilCrlf.bind_still (fun _ => still_pure _) ?_
  intro line past input offset result computed bytes whole
  cases computed
  rw [same, ← show line = bytes from whole, withoutCrlf]
  have cut := InOrder.single (line.take (line.length - crlf.length))
    (line.drop (line.length - crlf.length))
  rwa [List.take_append_drop] at cut

theorem cuts_reasonPhrase : Cuts (fun reason => [reason]) ReasonPhrase.parse :=
  Cuts.after (inside_matchUntil whitespaceMatcher) fun _ =>
    cuts_line withoutCrlf (fun reason => [reason]) fun _ => rfl

theorem inside_rtspVersion : Yields (fun _ _ => True) RtspVersion.parse :=
  (@decides_rtspVersion (fun _ => True) fun _ _ _ => trivial).yields

theorem inside_statusCode : Yields (fun _ _ => True) StatusCode.parse :=
  (@decides_statusCode (fun _ => True) fun _ _ _ => trivial).yields

theorem inside_skipInterleaved : Yields (fun _ _ => True) skipInterleaved :=
  (@decides_skipInterleaved fun _ => True).yields

theorem cuts_requestLine : Cuts RequestLine.slices RequestLine.parse := by
  have last (method uri : List UInt8) : Yields (fun line _ => line.method = method ∧
      line.uri = uri) (do
        let version ← RtspVersion.parse
        let _ ← matchStr crlf
        pure (RequestLine.mk method uri version)) := by
    refine inside_rtspVersion.after (fun version => ?_) fun _ _ _ made => made
    refine (@decides_matchStr (fun _ => True) crlf).yields.bind_still (fun _ => still_pure _) ?_
    intro _ past input offset line computed _ _
    cases computed
    exact ⟨rfl, rfl⟩
  have behindMethod (method : List UInt8) : Yields (fun line bytes => line.method = method ∧
      InOrder [line.uri] bytes) (do
        let uri ← RequestUri.parse
        let version ← RtspVersion.parse
        let _ ← matchStr crlf
        pure (RequestLine.mk method uri version)) := by
    refine cuts_requestUri.bind (last method) ?_
    intro uri line front back cut made
    rw [made.2]
    exact ⟨made.1, cut.append (.nil back)⟩
  refine cuts_method.bind behindMethod ?_
  intro method line front back cut made
  rw [RequestLine.slices, made.1]
  exact cut.append made.2

theorem cuts_responseLine : Cuts ResponseLine.slices ResponseLine.parse := by
  refine Cuts.after inside_rtspVersion fun version => Cuts.after inside_statusCode fun code => ?_
  refine cuts_reasonPhrase.bind_still (fun _ => still_pure _) ?_
  intro reason past input offset line computed bytes cut
  cases computed
  exact cut

theorem cuts_header : Cuts Header.slices Header.parse := by
  have value (key : List UInt8) : Yields (fun header bytes => header.key = key ∧
      InOrder [header.value] bytes) (do
        let _ ← matchWhitespaces
        let _ ← matchChar ':'.toUInt8
        let _ ← matchWhitespaces
        let value ← matchUntilCrlf
        pure (Header.mk key (withoutCrlf value))) := by
    have behind (header : Header) (front back : List UInt8)
        (made : header.key = key ∧ InOrder [header.value] back) :
        header.key = key ∧ InOrder [header.value] (front ++ back) :=
      ⟨made.1, made.2.behind front⟩
    refine (inside_matchUntil _).after (fun _ => ?_) behind
    refine (inside_matchUntil _).after (fun _ => ?_) behind
    refine (inside_matchUntil _).after (fun _ => ?_) behind
    intro past input offset header accepted
    obtain ⟨inside, cut⟩ := cuts_line (fun line => Header.mk key (withoutCrlf line))
      (fun header => [header.value]) (fun _ => rfl) past input offset header accepted
    obtain ⟨_, _, _, _, computed, _⟩ := (bind_eq_complete _ _ past input offset header).mp accepted
    cases computed
    exact ⟨inside, rfl, cut⟩
  refine Cuts.after (inside_matchUntil whitespaceMatcher) fun _ => ?_
  refine (cuts_itself (yields_matchSome .HeaderName headerNameCharMatcher)).bind value ?_
  intro key header front back cut made
  rw [Header.slices, made.1]
  exact cut.append made.2

/-! ## The header map and the message -/

theorem yields_headerMapLoop (left : Nat) (self : HeaderMap)
    (sum : self.headers.length + left = headerMapCapacity) :
    Yields (fun map bytes => ∃ more, map.headers = self.headers ++ more ∧
      InOrder (more.flatMap Header.slices) bytes) (HeaderMap.parseLoop left self sum) := by
  have ended (self : HeaderMap) {otherwise : Parser HeaderMap} (yields : Yields (fun map bytes =>
      ∃ more, map.headers = self.headers ++ more ∧ InOrder (more.flatMap Header.slices) bytes)
      otherwise) : Yields (fun map bytes => ∃ more, map.headers = self.headers ++ more ∧
        InOrder (more.flatMap Header.slices) bytes) (self.atEnd otherwise) := by
    intro past input offset map accepted
    rcases headerMap_atEnd_complete self otherwise past input offset map accepted with
      ⟨_, ⟨found, rfl, rfl⟩ | ⟨_, later⟩⟩
    · exact ⟨found.length_le, [], (List.append_nil _).symm, .nil _⟩
    · exact yields past input offset map later
  induction left generalizing self with
  | zero => exact ended self (yields_fail _)
  | succ left ih =>
      refine ended self (cuts_header.bind (fun header => ih (self.append header (by omega)) _) ?_)
      rintro header map front back cut ⟨more, headers, order⟩
      refine ⟨header :: more, ?_, ?_⟩
      · rw [headers, HeaderMap.append, List.append_assoc, List.singleton_append]
      · rw [List.flatMap_cons]
        exact cut.append order

theorem cuts_headerMap : Cuts HeaderMap.slices HeaderMap.parse := by
  refine (yields_headerMapLoop headerMapCapacity HeaderMap.empty (Nat.zero_add _)).imp ?_
  rintro map bytes ⟨more, headers, order⟩
  rw [HeaderMap.slices, headers]
  exact order

theorem cuts_messageBody (contentLength : Nat) :
    Cuts (fun body => [body]) (MessageBody.parse contentLength) := by
  refine cuts_itself fun past input offset value accepted => ?_
  obtain ⟨enough, rfl, rfl⟩ := messageBody_complete contentLength past input offset value accepted
  exact ⟨enough, rfl⟩

theorem yields_finishMessage {Line : Type} (startLine : Line) (headerMap : HeaderMap) :
    Yields (fun message bytes => message.startLine = startLine ∧ message.headerMap = headerMap ∧
      InOrder [message.body] bytes) (finishMessage startLine headerMap) := by
  refine (still_contentLength headerMap).yields.after (fun length => ?_) fun _ front back made =>
    ⟨made.1, made.2.1, made.2.2.behind front⟩
  refine (cuts_messageBody length).bind_still (fun body =>
    (still_cseqNumber headerMap).bind fun _ => still_pure _) ?_
  intro body past input offset message computed bytes cut
  obtain ⟨_, cseq, _, _, last, _⟩ := (bind_eq_complete _ _ past input offset message).mp computed
  cases last
  exact ⟨rfl, rfl, cut⟩

theorem cuts_message {Line : Type} {parseLine : Parser Line}
    {lineSlices : Line → List (List UInt8)} (line : Cuts lineSlices parseLine) :
    Cuts (Message.slices lineSlices) (parseMessage parseLine) := by
  have behindLine (startLine : Line) : Yields (fun message bytes =>
      message.startLine = startLine ∧ InOrder (message.headerMap.slices ++ [message.body]) bytes)
      (HeaderMap.parse >>= finishMessage startLine) := by
    refine cuts_headerMap.bind (fun map => yields_finishMessage startLine map) ?_
    intro map message front back cut made
    rw [made.2.1]
    exact ⟨made.1, cut.append made.2.2⟩
  refine Cuts.after inside_skipInterleaved fun _ => line.bind behindLine ?_
  intro startLine message front back cut made
  rw [Message.slices, made.1]
  exact cut.append made.2

/-! ## Reads by position

The loops of `parsing.c` with the position of every read checked against the length of
the input.  Only the matchers that want a byte can fault.
-/

def readAt {α : Type} (input : List UInt8) (position count : Nat)
    (next : List UInt8 → Outcome ParseError α) : Outcome ParseError α :=
  if position + count ≤ input.length then next ((input.drop position).take count) else .Fault

theorem readAt_inside {α : Type} (input : List UInt8) (position count : Nat)
    (next : List UInt8 → Outcome ParseError α) (inside : position + count ≤ input.length) :
    readAt input position count next = next ((input.drop position).take count) :=
  if_pos inside

def matchUntilReads (matcher : UInt8 → Bool) (input : List UInt8) :
    (left offset : Nat) → Outcome ParseError (List UInt8)
  | 0, _ => .Partial
  | left + 1, offset => readAt input offset 1 fun byte =>
      if ¬ byte.all matcher then .Complete offset (input.take offset)
      else matchUntilReads matcher input left (offset + 1)

theorem matchUntilReads_eq (matcher : UInt8 → Bool) (input : List UInt8) (left offset : Nat)
    (sum : offset + left = input.length) :
    matchUntilReads matcher input left offset =
      match matchUntilLoop matcher offset (input.drop offset) with
      | some found => .Complete found (input.take found)
      | none => .Partial := by
  induction left generalizing offset with
  | zero =>
      rw [List.drop_of_length_le (by omega)]
      rfl
  | succ left ih =>
      have next := ih (offset + 1) (by omega)
      rw [matchUntilReads, readAt_inside _ _ _ _ (by omega), next,
        List.drop_eq_getElem_cons (show offset < input.length by omega)]
      simp only [List.take_succ_cons, List.take_zero, List.all_cons, List.all_nil, Bool.and_true,
        matchUntilLoop]
      split <;> rfl

theorem matchUntil_reads (matcher : UInt8 → Bool) (past : Option UInt8) (input : List UInt8) :
    matchUntil matcher past input = matchUntilReads matcher input input.length 0 := by
  rw [matchUntilReads_eq matcher input input.length 0 (Nat.zero_add _)]
  rfl

def matchUntilStrReads (str input : List UInt8) :
    (left offset : Nat) → Outcome ParseError (List UInt8)
  | 0, _ => .Partial
  | left + 1, offset =>
      if input.length - offset < str.length then .Partial
      else readAt input offset str.length fun bytes =>
        if bytes = str then .Complete (offset + str.length) (input.take (offset + str.length))
        else matchUntilStrReads str input left (offset + 1)

theorem matchUntilStrReads_eq (str input : List UInt8) (left offset : Nat)
    (sum : offset + left = input.length) :
    matchUntilStrReads str input left offset =
      match matchUntilStrLoop str offset (input.drop offset) with
      | some found => .Complete found (input.take found)
      | none => .Partial := by
  induction left generalizing offset with
  | zero =>
      rw [List.drop_of_length_le (by omega)]
      rfl
  | succ left ih =>
      have next := ih (offset + 1) (by omega)
      have here := List.drop_eq_getElem_cons (show offset < input.length by omega)
      rw [matchUntilStrReads, here, matchUntilStrLoop, ← here, List.length_drop]
      by_cases room : input.length - offset < str.length
      · rw [if_pos room, if_pos room]
      · rw [if_neg room, if_neg room, readAt_inside _ _ _ _ (by omega), next]
        split <;> rfl

theorem matchUntilStr_reads (str : List UInt8) (past : Option UInt8) (input : List UInt8) :
    matchUntilStr str past input = matchUntilStrReads str input input.length 0 := by
  rw [matchUntilStrReads_eq str input input.length 0 (Nat.zero_add _)]
  rfl

theorem matchStr_reads (str : List UInt8) (past : Option UInt8) (input : List UInt8) :
    matchStr str past input = readAt input 0 (min input.length str.length) fun bytes =>
      if bytes ≠ str.take (min input.length str.length) then .Failure (.StrMismatch str bytes)
      else if input.length < str.length then .Partial
      else .Complete str.length (input.take str.length) := by
  rw [readAt_inside _ _ _ _ (by omega), List.drop_zero]
  rfl

theorem matchSome_reads (kind : ParseType) (matcher : UInt8 → Bool) (input : List UInt8) :
    matchSome kind matcher none input = readAt input 0 1 fun byte =>
      if ¬ byte.all matcher then .Failure (.TypeMismatch kind input)
      else matchUntil matcher none input := by
  cases input with
  | nil => rfl
  | cons c rest =>
      rw [readAt_inside _ _ _ _ (Nat.le_add_left 1 _)]
      simp [matchSome]

/-! ## The byte behind the input -/

theorem oversteps_answers {α : Type} {parser : Parser α}
    (blind : ∀ past input, parser past input = parser none input)
    (answers : ∀ input, parser none input ≠ .Fault) : Oversteps Never parser where
  faults_iff input := iff_of_false (answers input) id
  blind input _ past := blind past input

theorem oversteps_matchUntil (matcher : UInt8 → Bool) : Oversteps Never (matchUntil matcher) := by
  refine oversteps_answers (fun _ _ => rfl) fun input => ?_
  rw [matchUntil]
  split <;> simp

theorem oversteps_matchUntilCrlf : Oversteps Never matchUntilCrlf := by
  refine oversteps_answers (fun _ _ => rfl) fun input => ?_
  rw [matchUntilCrlf, matchUntilStr]
  split <;> simp

theorem oversteps_matchStr (str : List UInt8) : Oversteps Never (matchStr str) := by
  refine oversteps_answers (fun _ _ => rfl) fun input => ?_
  dsimp only [matchStr]
  split
  · simp
  · split <;> simp

theorem oversteps_matchSome (kind : ParseType) (matcher : UInt8 → Bool) :
    Oversteps Empty (matchSome kind matcher) where
  faults_iff input := by
    cases input with
    | nil => exact iff_of_true rfl rfl
    | cons c rest =>
        refine iff_of_false ?_ (List.cons_ne_nil c rest)
        rw [matchSome, List.head?_cons, Option.some_or]
        dsimp only
        split
        · simp
        · exact fun faults => ((oversteps_matchUntil matcher).faults_iff _).mp faults
  blind input some_ past := by
    cases input with
    | nil => exact absurd rfl some_
    | cons c rest => rfl

theorem leaves_matchUntil (matcher : UInt8 → Bool) (input : List UInt8) (offset : Nat)
    (value : List UInt8) (accepted : matchUntil matcher none input = .Complete offset value) :
    offset < input.length :=
  (@decides_matchUntil (fun _ => True) matcher).inside none input offset value accepted

theorem oversteps_some {α : Type} (skip : UInt8 → Bool) (kind : ParseType) (matcher : UInt8 → Bool)
    {made : List UInt8 → List UInt8 → Parser α}
    (never : ∀ skipped value, Oversteps Never (made skipped value)) :
    Oversteps Never (matchUntil skip >>= fun skipped => matchSome kind matcher >>= made skipped) :=
  (oversteps_matchUntil skip).bind_looked (leaves_matchUntil skip) fun skipped =>
    (oversteps_matchSome kind matcher).bind_first (never skipped)

theorem oversteps_method : Oversteps Never Method.parse :=
  (oversteps_matchUntil whitespaceMatcher).bind_looked (leaves_matchUntil whitespaceMatcher)
    fun _ => oversteps_matchSome .Ident identMatcher

theorem oversteps_requestUri : Oversteps Never RequestUri.parse :=
  (oversteps_matchUntil whitespaceMatcher).bind_never fun _ =>
    oversteps_matchUntil nonWhitespaceMatcher

theorem oversteps_rtspVersion :
    Oversteps (Consumes RtspVersion.slash) RtspVersion.parse := by
  have dot (major : List UInt8) : Oversteps Never (do
      let _ ← matchChar '.'.toUInt8
      let minor ← matchNumeric
      let majorInt ← Parser.orFail (.TypeMismatch .Int major) (scanU8 major)
      let minorInt ← Parser.orFail (.TypeMismatch .Int minor) (scanU8 minor)
      pure (RtspVersion.mk majorInt minorInt) : Parser RtspVersion) :=
    oversteps_some _ .Int isDigit fun _ minor => ((still_orFail _ _).bind fun _ =>
      (still_orFail _ _).bind fun _ => still_pure _).oversteps
  refine ((oversteps_matchUntil whitespaceMatcher).bind fun _ =>
    (oversteps_matchStr rtspSlash).bind fun _ =>
      (oversteps_matchSome .Int isDigit).bind_first dot).congr fun input => ?_
  have skips := (@decides_matchUntil (fun _ => True) whitespaceMatcher).within none input
  have slashes (rest : List UInt8) :=
    (@decides_matchStr (fun _ => True) rtspSlash).within none rest
  rw [RtspVersion.slash, matchWhitespaces]
  constructor
  · intro slash
    obtain ⟨offset, value, accepted, later⟩ := (consumes_bind _ _ none input skips).mp slash
    obtain ⟨own, str, matched, nothing⟩ := (consumes_iff _ none _ (slashes _)).mp later
    exact Or.inr ⟨offset, value, accepted, Or.inr ⟨own, str, matched, nothing⟩⟩
  · rintro (never | ⟨offset, value, accepted, never | ⟨own, str, matched, nothing⟩⟩)
    · exact never.elim
    · exact never.elim
    · exact (consumes_bind _ _ none input skips).mpr ⟨offset, value, accepted,
        (consumes_iff _ none _ (slashes _)).mpr ⟨own, str, matched, nothing⟩⟩

theorem oversteps_statusCode : Oversteps Never StatusCode.parse :=
  oversteps_some whitespaceMatcher .Int isDigit fun _ _ => (still_orFail _ _).oversteps

theorem oversteps_untilCrlf {α : Type} (skip : UInt8 → Bool) (made : List UInt8 → α) :
    Oversteps Never (matchUntil skip >>= fun _ => matchUntilCrlf >>= fun line =>
      pure (made line)) :=
  (oversteps_matchUntil skip).bind_never fun _ =>
    oversteps_matchUntilCrlf.bind_never fun _ => (still_pure _).oversteps

theorem oversteps_requestLine : Oversteps (Consumes RequestLine.slash) RequestLine.parse := by
  refine (oversteps_method.bind fun method => oversteps_requestUri.bind fun uri =>
    oversteps_rtspVersion.bind_first fun version =>
      (oversteps_matchStr crlf).bind_never fun _ => (still_pure _).oversteps).congr fun input => ?_
  have methods := (@decides_method (fun _ => True) fun _ _ _ => trivial).within none
  have uris := (@decides_requestUri (fun _ => True) fun _ _ _ => trivial).within none
  rw [RequestLine.slash, consumes_bind _ _ none input (methods input)]
  constructor
  · rintro ⟨offset, method, accepted, later⟩
    obtain ⟨own, uri, found, slash⟩ := (consumes_bind _ _ none _ (uris _)).mp later
    exact Or.inr ⟨offset, method, accepted, Or.inr ⟨own, uri, found, slash⟩⟩
  · rintro (never | ⟨offset, method, accepted, never | ⟨own, uri, found, slash⟩⟩)
    · exact never.elim
    · exact never.elim
    · exact ⟨offset, method, accepted, (consumes_bind _ _ none _ (uris _)).mpr
        ⟨own, uri, found, slash⟩⟩

theorem oversteps_responseLine : Oversteps (Consumes RtspVersion.slash) ResponseLine.parse := by
  refine oversteps_rtspVersion.bind_first fun version => oversteps_statusCode.bind_never fun code =>
    ?_
  have reason := oversteps_untilCrlf whitespaceMatcher withoutCrlf
  exact reason.bind_never fun _ => (still_pure _).oversteps

theorem oversteps_header : Oversteps Never Header.parse :=
  oversteps_some whitespaceMatcher .HeaderName headerNameCharMatcher fun _ key =>
    (oversteps_matchUntil whitespaceMatcher).bind_never fun _ =>
      (oversteps_matchUntil _).bind_never fun _ =>
        oversteps_untilCrlf whitespaceMatcher fun value => Header.mk key (withoutCrlf value)

theorem oversteps_atEnd (self : HeaderMap) {otherwise : Parser HeaderMap}
    (oversteps : Oversteps Never otherwise) : Oversteps Never (self.atEnd otherwise) := by
  refine oversteps_answers (fun past input => ?_) fun input => ?_
  · rw [HeaderMap.atEnd, HeaderMap.atEnd, oversteps.blind input id past]
  · rw [HeaderMap.atEnd]
    split
    · simp
    · split
      · simp
      · exact fun faults => (oversteps.faults_iff input).mp faults

theorem oversteps_headerMap : Oversteps Never HeaderMap.parse := by
  have loop (left : Nat) : ∀ (self : HeaderMap) (sum : self.headers.length + left =
      headerMapCapacity), Oversteps Never (HeaderMap.parseLoop left self sum) := by
    induction left with
    | zero => exact fun self _ => oversteps_atEnd self (Still.oversteps (Or.inr ⟨_, rfl⟩))
    | succ left ih =>
        exact fun self _ => oversteps_atEnd self (oversteps_header.bind_never fun header => ih _ _)
  exact loop headerMapCapacity HeaderMap.empty (Nat.zero_add _)

theorem oversteps_messageBody (contentLength : Nat) :
    Oversteps Never (MessageBody.parse contentLength) := by
  refine oversteps_answers (fun _ _ => rfl) fun input => ?_
  rw [MessageBody.parse]
  split
  · simp
  · split <;> simp

theorem oversteps_skipInterleaved : Oversteps Never skipInterleaved := by
  have answers (past : Option UInt8) (input : List UInt8) :
      skipInterleaved past input = skipInterleaved none input ∧
        skipInterleaved past input ≠ .Fault := by
    induction size : input.length using Nat.strong_induction_on generalizing input with
    | _ count ih =>
        by_cases short : input.length < interleavedHeaderSize
        · rw [skipInterleaved_short past input short, skipInterleaved_short none input short]
          exact ⟨rfl, nofun⟩
        · have enough := Nat.le_of_not_lt short
          by_cases dollar : input.head? = some '$'.toUInt8
          · rw [skipInterleaved_frame past input enough dollar,
              skipInterleaved_frame none input enough dollar]
            split
            · exact ⟨rfl, nofun⟩
            · have shorter : (input.drop (interleavedHeaderSize +
                  interleavedPayloadLen input)).length < count := by
                rw [List.length_drop, ← size]
                have four : 0 < interleavedHeaderSize := by decide
                omega
              obtain ⟨same, other⟩ := ih _ shorter _ rfl
              rw [Ne, shift_eq_fault, same]
              exact ⟨rfl, same ▸ other⟩
          · rw [skipInterleaved_message past input enough dollar,
              skipInterleaved_message none input enough dollar]
            exact ⟨rfl, nofun⟩
  exact oversteps_answers (fun past input => (answers past input).1)
    fun input => (answers none input).2

theorem oversteps_message {Line : Type} {parseLine : Parser Line} {slash : Parser (List UInt8)}
    (line : Oversteps (Consumes slash) parseLine) :
    Oversteps (Consumes (skipInterleaved >>= fun _ => slash)) (parseMessage parseLine) := by
  have finish (startLine : Line) (map : HeaderMap) :
      Oversteps Never (finishMessage startLine map) :=
    (still_contentLength map).oversteps.bind_never fun length =>
      (oversteps_messageBody length).bind_never fun body =>
        ((still_cseqNumber map).bind fun _ => still_pure _).oversteps
  refine (oversteps_skipInterleaved.bind fun _ => line.bind_first fun startLine =>
    oversteps_headerMap.bind_never fun map => finish startLine map).congr fun input => ?_
  rw [consumes_bind _ _ none input ((@decides_skipInterleaved fun _ => True).within none input)]
  constructor
  · rintro ⟨offset, skipped, accepted, atSlash⟩
    exact Or.inr ⟨offset, skipped, accepted, atSlash⟩
  · rintro (never | ⟨offset, skipped, accepted, atSlash⟩)
    · exact never.elim
    · exact ⟨offset, skipped, accepted, atSlash⟩

/-- The parser looks at no byte behind the input, and cuts the message out of the bytes
that it takes. -/
structure StaysInside {Line : Type} (lineSlices : Line → List (List UInt8))
    (parse : Parser (Message Line)) (input : List UInt8) : Prop where
  reads : parse none input ≠ .Fault ∧ ∀ past, parse past input = parse none input
  slices : ∀ past offset message, parse past input = .Complete offset message →
    offset ≤ input.length ∧ InOrder (message.slices lineSlices) (input.take offset)

/-- Frames, and a start line up to the slash of its version. -/
def EndsAtSlash (Slash : List UInt8 → Prop) (input : List UInt8) : Prop :=
  ∃ frames start, input = frames ++ start ∧ Frames frames ∧ Slash start

/-- At the end of its memory a slice is left exactly where it ends so. -/
theorem message_fault_iff {Line : Type} {parseLine : Parser Line} {slash : Parser (List UInt8)}
    {Slash LineBytes : List UInt8 → Prop} (starts : StartsMessage parseLine slash Slash LineBytes)
    (line : Oversteps (Consumes slash) parseLine) (input : List UInt8) :
    parseMessage parseLine none input = .Fault ↔ EndsAtSlash Slash input := by
  rw [EndsAtSlash, ← consumes_slash_iff starts none]
  exact (oversteps_message line).faults_iff input

theorem staysInside_iff {Line : Type} {parseLine : Parser Line} {slash : Parser (List UInt8)}
    {Slash LineBytes : List UInt8 → Prop} {lineSlices : Line → List (List UInt8)}
    (starts : StartsMessage parseLine slash Slash LineBytes)
    (line : Oversteps (Consumes slash) parseLine) (cuts : Cuts lineSlices parseLine)
    (input : List UInt8) :
    StaysInside lineSlices (parseMessage parseLine) input ↔ ¬ EndsAtSlash Slash input := by
  have oversteps := oversteps_message line
  rw [← message_fault_iff starts line]
  constructor
  · exact fun stays => stays.reads.1
  · intro answers
    have free := mt (oversteps.faults_iff input).mpr answers
    exact ⟨⟨answers, oversteps.blind input free⟩,
      fun past offset message accepted => cuts_message cuts past input offset message accepted⟩

theorem messages_staysInside_iff (input : List UInt8) :
    (StaysInside RequestLine.slices Request.parse input ↔ ¬ EndsAtSlash RequestSlash input) ∧
      (StaysInside ResponseLine.slices Response.parse input ↔
        ¬ EndsAtSlash VersionSlash input) :=
  ⟨staysInside_iff requestLine_starts oversteps_requestLine cuts_requestLine input,
    staysInside_iff responseLine_starts oversteps_responseLine cuts_responseLine input⟩

/-- Fifteen bytes of a request and five of a response. -/
theorem messages_overstep :
    ¬ StaysInside RequestLine.slices Request.parse (charSlice "OPTIONS * RTSP/") ∧
      ¬ StaysInside ResponseLine.slices Response.parse (charSlice "RTSP/") := by
  constructor
  · intro stays
    refine stays.reads.1 ?_
    rw [Request.parse, message_unframed _ none _ (by decide) (by decide)]
    rfl
  · intro stays
    refine stays.reads.1 ?_
    rw [Response.parse, message_unframed _ none _ (by decide) (by decide)]
    rfl

end Compy.Rtsp
