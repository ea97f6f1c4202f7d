import Compy.Rtsp.Message

/-!
# What the parsers take

Which bytes the parsers of the parts of a message take, said without the parsers.
-/

set_option autoImplicit false

namespace Compy.Rtsp

open IncrementalParsing Searching

/-! ## The matchers -/

/-- The next byte is there and does not match. -/
def StopsAt (matcher : UInt8 → Bool) (rest : List UInt8) : Prop :=
  ∃ c tail, rest = c :: tail ∧ matcher c = false

def Anything (_ : List UInt8) : Prop := True

theorem stopsAt_append {matcher : UInt8 → Bool} {bytes : List UInt8} (rest : List UInt8)
    (stops : StopsAt matcher bytes) : StopsAt matcher (bytes ++ rest) := by
  obtain ⟨c, tail, rfl, other⟩ := stops
  exact ⟨c, tail ++ rest, rfl, other⟩

theorem reads_matchUntil (matcher : UInt8 → Bool) (bytes : List UInt8)
    (all : ∀ c ∈ bytes, matcher c = true) :
    Reads (StopsAt matcher) (matchUntil matcher) bytes bytes := by
  rintro past _ ⟨c, rest, rfl, stop⟩
  exact matchUntil_found matcher past bytes c rest all stop

theorem reads_matchSome (kind : ParseType) (matcher : UInt8 → Bool) (bytes : List UInt8)
    (present : bytes ≠ []) (all : ∀ c ∈ bytes, matcher c = true) :
    Reads (StopsAt matcher) (matchSome kind matcher) bytes bytes := by
  intro past rest stops
  have until_ := reads_matchUntil matcher bytes all past rest stops
  obtain ⟨first, more, rfl⟩ := List.exists_cons_of_ne_nil present
  rw [List.cons_append] at until_ ⊢
  rw [matchSome_cons kind matcher past first _ (all first List.mem_cons_self), until_]

theorem reads_matchStr (str : List UInt8) : Reads Anything (matchStr str) str str :=
  fun past rest _ => matchStr_found str past rest

theorem crlf_firstAt {value : List UInt8} (clean : ¬ crlf <:+: value) (rest : List UInt8) :
    FirstAt crlf (value ++ crlf ++ rest) value.length :=
  firstAt_of_clean (by decide) clean rest

theorem reads_matchUntilCrlf (value : List UInt8) (clean : ¬ crlf <:+: value) :
    Reads Anything matchUntilCrlf (value ++ crlf) (value ++ crlf) := by
  intro past rest _
  have found := matchUntilStr_found crlf_ne_nil (crlf_firstAt clean rest) past
  rwa [← List.length_append, List.take_left] at found

theorem withoutCrlf_line (value : List UInt8) : withoutCrlf (value ++ crlf) = value := by
  rw [withoutCrlf, List.length_append, Nat.add_sub_cancel, List.take_left]

/-! ## Consuming -/

theorem consumes_until {α : Type} (matcher : UInt8 → Bool) (second : List UInt8 → Parser α)
    (past : Option UInt8) (bytes : List UInt8) :
    Consumes (matchUntil matcher >>= second) past bytes ↔ ∃ front rest, bytes = front ++ rest ∧
      (∀ c ∈ front, matcher c = true) ∧ StopsAt matcher rest ∧
      Consumes (second front) past rest := by
  rw [consumes_bind _ _ past bytes
    ((@decides_matchUntil (fun _ => True) matcher).within past bytes)]
  constructor
  · intro ⟨offset, value, accepted, later⟩
    obtain ⟨rfl, all, c, rest, rfl, stop⟩ := matchUntil_complete matcher past bytes offset value
      accepted
    rw [List.drop_left] at later
    exact ⟨value, c :: rest, rfl, all, ⟨c, rest, rfl, stop⟩, later⟩
  · rintro ⟨front, rest, rfl, all, stops, later⟩
    refine ⟨front.length, front, reads_matchUntil matcher front all past rest stops, ?_⟩
    rwa [List.drop_left]

theorem consumes_some {α : Type} (kind : ParseType) (matcher : UInt8 → Bool)
    (second : List UInt8 → Parser α) (past : Option UInt8) (bytes : List UInt8) :
    Consumes (matchSome kind matcher >>= second) past bytes ↔ ∃ front rest, bytes = front ++ rest ∧
      (front ≠ [] ∧ ∀ c ∈ front, matcher c = true) ∧ StopsAt matcher rest ∧
      Consumes (second front) past rest := by
  rw [consumes_bind _ _ past bytes
    ((@decides_matchSome (fun _ => True) kind matcher).within past bytes)]
  constructor
  · intro ⟨offset, value, accepted, later⟩
    obtain ⟨until_, first, more, head, wanted⟩ :=
      matchSome_complete kind matcher past bytes offset value accepted
    obtain ⟨rfl, all, c, rest, rfl, stop⟩ := matchUntil_complete matcher past bytes offset value
      until_
    rw [List.drop_left] at later
    refine ⟨value, c :: rest, rfl, ⟨?_, all⟩, ⟨c, rest, rfl, stop⟩, later⟩
    rintro rfl
    exact matched_ne wanted stop (List.cons.inj head).1.symm
  · rintro ⟨front, rest, rfl, ⟨present, all⟩, stops, later⟩
    refine ⟨front.length, front, reads_matchSome kind matcher front present all past rest stops, ?_⟩
    rwa [List.drop_left]

theorem consumes_str {α : Type} (str : List UInt8) (second : List UInt8 → Parser α)
    (past : Option UInt8) (bytes : List UInt8) :
    Consumes (matchStr str >>= second) past bytes ↔ ∃ rest, bytes = str ++ rest ∧
      Consumes (second str) past rest := by
  rw [consumes_bind _ _ past bytes ((@decides_matchStr (fun _ => True) str).within past bytes)]
  constructor
  · intro ⟨offset, value, accepted, later⟩
    obtain ⟨rfl, rfl, rest, rfl⟩ := matchStr_complete str past bytes offset value accepted
    rw [List.drop_left] at later
    exact ⟨rest, rfl, later⟩
  · rintro ⟨rest, rfl, later⟩
    refine ⟨str.length, str, matchStr_found str past rest, ?_⟩
    rwa [List.drop_left]

theorem consumes_matchStr (str : List UInt8) (past : Option UInt8) (bytes : List UInt8) :
    Consumes (matchStr str) past bytes ↔ bytes = str := by
  constructor
  · intro ⟨value, accepted⟩
    obtain ⟨length, _, rest, rfl⟩ := matchStr_complete str past bytes bytes.length value accepted
    rw [List.length_append] at length
    rw [List.eq_nil_of_length_eq_zero (by omega : rest.length = 0), List.append_nil]
  · rintro rfl
    have found := matchStr_found bytes past []
    rw [List.append_nil] at found
    exact ⟨bytes, found⟩

theorem consumes_matchUntilCrlf (past : Option UInt8) (bytes : List UInt8) :
    Consumes matchUntilCrlf past bytes ↔ ∃ text, bytes = text ++ crlf ∧ ¬ crlf <:+: text := by
  constructor
  · intro ⟨value, accepted⟩
    obtain ⟨i, first, length, _⟩ := (matchUntilStr_complete crlf_ne_nil past bytes _ _).mp accepted
    have whole := first.occurs.split
    rw [← length, List.drop_length, List.append_nil] at whole
    exact ⟨bytes.take i, whole, first.clean crlf_ne_nil⟩
  · rintro ⟨text, rfl, clean⟩
    have read := reads_matchUntilCrlf text clean past [] trivial
    rw [List.append_nil] at read
    exact ⟨text ++ crlf, read⟩

theorem consumes_orFail {α γ : Type} (error : ParseError) (value : Option α)
    (second : α → Parser γ) (past : Option UInt8) (bytes : List UInt8) :
    Consumes (Parser.orFail error value >>= second) past bytes ↔
      ∃ given, value = some given ∧ Consumes (second given) past bytes := by
  cases value with
  | none =>
      constructor
      · intro ⟨_, accepted⟩
        cases accepted
      · rintro ⟨_, impossible, _⟩
        cases impossible
  | some value =>
      rw [Parser.orFail, pure_bind]
      constructor
      · exact fun consumes => ⟨value, rfl, consumes⟩
      · rintro ⟨_, same, consumes⟩
        cases same
        exact consumes

/-! ## Lines -/

theorem word_stops {matcher other : UInt8 → Bool} {bytes : List UInt8}
    (word : bytes ≠ [] ∧ ∀ c ∈ bytes, matcher c = true)
    (apart : ∀ c, matcher c = true → other c = false) : StopsAt other bytes := by
  obtain ⟨first, more, rfl⟩ := List.exists_cons_of_ne_nil word.1
  exact ⟨first, more, rfl, apart first (word.2 first List.mem_cons_self)⟩

theorem stopsAt_nil {matcher : UInt8 → Bool} {front rest : List UInt8}
    (all : ∀ c ∈ front, matcher c = true) (stops : StopsAt matcher (front ++ rest)) :
    front = [] := by
  cases front with
  | nil => rfl
  | cons first more =>
      obtain ⟨c, tail, same, stop⟩ := stops
      exact absurd (List.cons.inj same).1 (matched_ne (all first List.mem_cons_self) stop)

def Blank (bytes : List UInt8) : Prop := ∀ c ∈ bytes, whitespaceMatcher c = true

theorem blank_nil : Blank [] := fun _ member => absurd member List.not_mem_nil

def Digits (bytes : List UInt8) : Prop := bytes ≠ [] ∧ ∀ c ∈ bytes, isDigit c = true

theorem Digits.scanU8 {bytes : List UInt8} (digits : Digits bytes) :
    ∃ number, Compy.Rtsp.scanU8 bytes = some number := by
  rw [Compy.Rtsp.scanU8, scanInteger_digits bytes digits.1 digits.2]
  exact ⟨_, rfl⟩

theorem Digits.scanU16 {bytes : List UInt8} (digits : Digits bytes) :
    ∃ number, Compy.Rtsp.scanU16 bytes = some number := by
  rw [Compy.Rtsp.scanU16, scanInteger_digits bytes digits.1 digits.2]
  exact ⟨_, rfl⟩

/-- What is behind the slash of a version. -/
def VersionNumbers (bytes : List UInt8) : Prop := ∃ major dots minor,
  bytes = major ++ (dots ++ minor) ∧ Digits major ∧
    (dots ≠ [] ∧ ∀ c ∈ dots, (c == '.'.toUInt8) = true) ∧ Digits minor

def RtspVersion.numbers : Parser RtspVersion := do
  let major ← matchNumeric
  let _ ← matchChar '.'.toUInt8
  let minor ← matchNumeric
  let majorInt ← Parser.orFail (.TypeMismatch .Int major) (scanU8 major)
  let minorInt ← Parser.orFail (.TypeMismatch .Int minor) (scanU8 minor)
  pure { major := majorInt, minor := minorInt }

theorem rtspVersion_eq :
    RtspVersion.parse = RtspVersion.slash >>= fun _ => RtspVersion.numbers := by
  rw [RtspVersion.slash, bind_assoc]
  rfl

theorem consumes_numbers {α : Type} (second : RtspVersion → Parser α) (Takes : List UInt8 → Prop)
    (past : Option UInt8) (same : ∀ version rest, Consumes (second version) past rest ↔ Takes rest)
    (bytes : List UInt8) :
    Consumes (RtspVersion.numbers >>= second) past bytes ↔ ∃ numbers rest,
      bytes = numbers ++ rest ∧ VersionNumbers numbers ∧ StopsAt isDigit rest ∧ Takes rest := by
  simp only [RtspVersion.numbers, matchNumeric, matchChar, bind_assoc, pure_bind, consumes_some,
    consumes_until, consumes_orFail, same]
  constructor
  · rintro ⟨major, _, rfl, digits, stopsMajor, dots, _, rfl, allDots, stopsDots, minor, rest, rfl,
      digits', stopsMinor, _, _, _, _, takes⟩
    refine ⟨major ++ (dots ++ minor), rest, by simp only [List.append_assoc],
      ⟨major, dots, minor, rfl, digits, ⟨?_, allDots⟩, digits'⟩, stopsMinor, takes⟩
    rintro rfl
    exact digits'.1 (stopsAt_nil digits'.2 stopsMajor)
  · rintro ⟨_, rest, rfl, ⟨major, dots, minor, rfl, digits, allDots, digits'⟩, stops, takes⟩
    obtain ⟨majorInt, one⟩ := digits.scanU8
    obtain ⟨minorInt, two⟩ := digits'.scanU8
    refine ⟨major, dots ++ (minor ++ rest), by simp only [List.append_assoc], digits, ?_, dots,
      minor ++ rest, rfl, allDots.2, ?_, minor, rest, rfl, digits', stops, majorInt, one, minorInt,
      two, takes⟩
    · exact stopsAt_append _ (word_stops allDots fun c dot => by
        rw [eq_of_beq dot]
        rfl)
    · exact stopsAt_append _ (word_stops digits' fun c digit =>
        beq_eq_false_iff_ne.mpr (matched_ne digit rfl))

theorem stopsAt_of_append {matcher : UInt8 → Bool} {front rest : List UInt8} (present : front ≠ [])
    (stops : StopsAt matcher (front ++ rest)) : StopsAt matcher front := by
  obtain ⟨first, more, rfl⟩ := List.exists_cons_of_ne_nil present
  obtain ⟨c, tail, same, stop⟩ := stops
  exact ⟨first, more, rfl, (List.cons.inj same).1 ▸ stop⟩

theorem space_or_not (c : UInt8) : nonWhitespaceMatcher c = !whitespaceMatcher c := rfl

theorem ident_not_space (c : UInt8) (ident : identMatcher c = true) :
    whitespaceMatcher c = false := beq_eq_false_iff_ne.mpr (matched_ne ident rfl)

theorem consumes_pure {α : Type} (value : α) (past : Option UInt8) (bytes : List UInt8) :
    Consumes (pure value : Parser α) past bytes ↔ bytes = [] := by
  constructor
  · intro ⟨_, accepted⟩
    cases bytes with
    | nil => rfl
    | cons c rest => cases accepted
  · rintro rfl
    exact ⟨value, rfl⟩

/-- Spaces and the slash of a version. -/
def VersionSlash (bytes : List UInt8) : Prop := ∃ lead, bytes = lead ++ rtspSlash ∧ Blank lead

/-- A method, a URI and the slash of a version, with spaces in front of each; those
between method and URI may be missing where the URI cannot be taken for more of
the method. -/
def RequestSlash (bytes : List UInt8) : Prop := ∃ lead method gap uri between,
  bytes = lead ++ (method ++ (gap ++ (uri ++ (between ++ rtspSlash)))) ∧ Blank lead ∧
    (method ≠ [] ∧ ∀ c ∈ method, identMatcher c = true) ∧ Blank gap ∧
    (uri ≠ [] ∧ ∀ c ∈ uri, nonWhitespaceMatcher c = true) ∧ (between ≠ [] ∧ Blank between) ∧
    StopsAt identMatcher (gap ++ uri)

theorem consumes_versionFront {α : Type} (second : Parser α) (Takes : List UInt8 → Prop)
    (past : Option UInt8) (same : ∀ rest, Consumes second past rest ↔ Takes rest)
    (bytes : List UInt8) :
    Consumes (RtspVersion.slash >>= fun _ => second) past bytes ↔ ∃ start rest,
      bytes = start ++ rest ∧ VersionSlash start ∧ Takes rest := by
  simp only [RtspVersion.slash, matchWhitespaces, bind_assoc, consumes_until, consumes_str, same]
  constructor
  · rintro ⟨lead, _, rfl, blank, _, rest, rfl, takes⟩
    exact ⟨lead ++ rtspSlash, rest, (List.append_assoc _ _ _).symm, ⟨lead, rfl, blank⟩, takes⟩
  · rintro ⟨_, rest, rfl, ⟨lead, rfl, blank⟩, takes⟩
    exact ⟨lead, rtspSlash ++ rest, List.append_assoc _ _ _, blank, ⟨_, _, rfl, rfl⟩, rest, rfl,
      takes⟩

theorem consumes_requestFront {α : Type} (second : List UInt8 → List UInt8 → Parser α)
    (Takes : List UInt8 → Prop) (past : Option UInt8)
    (same : ∀ method uri rest, Consumes (second method uri) past rest ↔ Takes rest)
    (bytes : List UInt8) :
    Consumes (Method.parse >>= fun method => RequestUri.parse >>= fun uri =>
        RtspVersion.slash >>= fun _ => second method uri) past bytes ↔
      ∃ start rest, bytes = start ++ rest ∧ RequestSlash start ∧ Takes rest := by
  simp only [Method.parse, RequestUri.parse, RtspVersion.slash, matchWhitespaces, matchIdent,
    matchNonWhitespaces, bind_assoc, consumes_until, consumes_some, consumes_str, same]
  constructor
  · rintro ⟨lead, _, rfl, blankLead, _, method, _, rfl, word, stopsMethod, gap, _, rfl, blankGap,
      stopsGap, uri, _, rfl, allUri, stopsUri, between, _, rfl, blank, _, rest, rfl, takes⟩
    have betweenPresent : between ≠ [] := by
      rintro rfl
      have slash : ∀ c ∈ rtspSlash, nonWhitespaceMatcher c = true := List.all_eq_true.mp rfl
      exact List.cons_ne_nil _ _ (stopsAt_nil slash stopsUri)
    have uriPresent : uri ≠ [] := by
      rintro rfl
      exact betweenPresent (stopsAt_nil blank stopsGap)
    refine ⟨lead ++ (method ++ (gap ++ (uri ++ (between ++ rtspSlash)))), rest,
      by simp only [List.append_assoc], ⟨lead, method, gap, uri, between, rfl, blankLead, word,
        blankGap, ⟨uriPresent, allUri⟩, ⟨betweenPresent, blank⟩, ?_⟩, takes⟩
    rw [← List.append_assoc] at stopsMethod
    exact stopsAt_of_append (List.append_ne_nil_of_right_ne_nil gap uriPresent) stopsMethod
  · rintro ⟨_, rest, rfl, ⟨lead, method, gap, uri, between, rfl, blankLead, word, blankGap, uriWord,
      betweenWord, stops⟩, takes⟩
    have stopsLead : StopsAt whitespaceMatcher method := word_stops word ident_not_space
    have stopsGap : StopsAt whitespaceMatcher uri := word_stops uriWord fun c other => by
      rwa [space_or_not, Bool.not_eq_true'] at other
    have stopsUri : StopsAt nonWhitespaceMatcher between := word_stops betweenWord fun c space => by
      rw [space_or_not, space]
      rfl
    have stopsMethod :
        StopsAt identMatcher (gap ++ (uri ++ (between ++ (rtspSlash ++ rest)))) := by
      rw [← List.append_assoc]
      exact stopsAt_append _ stops
    exact ⟨lead, method ++ (gap ++ (uri ++ (between ++ (rtspSlash ++ rest)))),
      by simp only [List.append_assoc], blankLead, stopsAt_append _ stopsLead, method, _, rfl, word,
      stopsMethod, gap, _, rfl, blankGap, stopsAt_append _ stopsGap, uri, _, rfl, uriWord.2,
      stopsAt_append _ stopsUri, between, _, rfl, betweenWord.2, ⟨_, _, rfl, rfl⟩, rest, rfl, takes⟩

theorem consumes_versionSlash (past : Option UInt8) (bytes : List UInt8) :
    Consumes RtspVersion.slash past bytes ↔ VersionSlash bytes := by
  rw [← consumes_map _ (fun _ => ()),
    consumes_versionFront (pure ()) (fun rest => rest = []) past (consumes_pure () past)]
  constructor
  · rintro ⟨start, _, rfl, slash, rfl⟩
    rwa [List.append_nil]
  · exact fun slash => ⟨bytes, [], (List.append_nil _).symm, slash, rfl⟩

theorem consumes_requestSlash (past : Option UInt8) (bytes : List UInt8) :
    Consumes RequestLine.slash past bytes ↔ RequestSlash bytes := by
  rw [← consumes_map _ (fun _ => ()), RequestLine.slash]
  simp only [bind_assoc]
  rw [consumes_requestFront (fun _ _ => pure ()) (fun rest => rest = []) past
    (fun _ _ => consumes_pure () past)]
  constructor
  · rintro ⟨start, _, rfl, slash, rfl⟩
    rwa [List.append_nil]
  · exact fun slash => ⟨bytes, [], (List.append_nil _).symm, slash, rfl⟩

def RequestLineBytes (bytes : List UInt8) : Prop := ∃ start numbers,
  bytes = start ++ (numbers ++ crlf) ∧ RequestSlash start ∧ VersionNumbers numbers

theorem consumes_requestLine (past : Option UInt8) (bytes : List UInt8) :
    Consumes RequestLine.parse past bytes ↔ RequestLineBytes bytes := by
  have last (line : RequestLine) (rest : List UInt8) :
      Consumes (matchStr crlf >>= fun _ => pure line) past rest ↔ rest = crlf := by
    rw [consumes_map _ (fun _ => line), consumes_matchStr]
  have numbers (method uri rest : List UInt8) :=
    consumes_numbers (fun version => matchStr crlf >>= fun _ =>
      pure (RequestLine.mk method uri version)) (fun rest => rest = crlf) past
      (fun version => last (RequestLine.mk method uri version)) rest
  rw [RequestLine.parse]
  simp only [rtspVersion_eq, bind_assoc]
  rw [consumes_requestFront _ _ past numbers]
  constructor
  · rintro ⟨start, _, rfl, front, digits, _, rfl, version, _, rfl⟩
    exact ⟨start, digits, rfl, front, version⟩
  · rintro ⟨start, digits, rfl, front, version⟩
    exact ⟨start, digits ++ crlf, rfl, front, digits, crlf, rfl, version, ⟨_, _, rfl, rfl⟩, rfl⟩

/-- A version, a status code behind spaces, and a line that does not begin with
another digit. -/
def ResponseLineBytes (bytes : List UInt8) : Prop := ∃ start numbers gap code text,
  bytes = start ++ (numbers ++ (gap ++ (code ++ (text ++ crlf)))) ∧ VersionSlash start ∧
    VersionNumbers numbers ∧ (gap ≠ [] ∧ Blank gap) ∧ Digits code ∧
    StopsAt isDigit (text ++ crlf) ∧ ¬ crlf <:+: text

theorem clean_append {front text : List UInt8} (other : ∀ c ∈ front, c ≠ '\r'.toUInt8)
    (clean : ¬ crlf <:+: text) : ¬ crlf <:+: front ++ text := by
  induction front with
  | nil => exact clean
  | cons c front ih =>
      intro inside
      rcases List.infix_cons_iff.mp inside with start | later
      · obtain ⟨_, same⟩ := start
        exact other c List.mem_cons_self (List.cons.inj same).1.symm
      · exact ih (fun c member => other c (List.mem_cons_of_mem _ member)) later

theorem span_line (matcher : UInt8 → Bool) (cr : matcher '\r'.toUInt8 = false)
    (text : List UInt8) : ∃ front back, text = front ++ back ∧ (∀ c ∈ front, matcher c = true) ∧
      StopsAt matcher (back ++ crlf) := by
  rcases all_or_first matcher text with all | ⟨front, c, rest, rfl, all, stop⟩
  · exact ⟨text, [], (List.append_nil _).symm, all, ⟨_, _, rfl, cr⟩⟩
  · exact ⟨front, c :: rest, rfl, all, ⟨c, rest ++ crlf, rfl, stop⟩⟩

theorem clean_of_append {front text : List UInt8} (clean : ¬ crlf <:+: front ++ text) :
    ¬ crlf <:+: text :=
  fun inside => clean (inside.trans (List.suffix_append front text).isInfix)

theorem consumes_skipLine {α : Type} (skip : UInt8 → Bool) (cr : skip '\r'.toUInt8 = false)
    (second : List UInt8 → Parser α) (past : Option UInt8)
    (line : ∀ front bytes, Consumes (second front) past bytes ↔
      ∃ text, bytes = text ++ crlf ∧ ¬ crlf <:+: text) (bytes : List UInt8) :
    Consumes (matchUntil skip >>= second) past bytes ↔
      ∃ text, bytes = text ++ crlf ∧ ¬ crlf <:+: text := by
  simp only [consumes_until, line]
  constructor
  · rintro ⟨front, _, rfl, all, _, text, rfl, clean⟩
    exact ⟨front ++ text, (List.append_assoc _ _ _).symm,
      clean_append (fun c member => matched_ne (all c member) cr) clean⟩
  · rintro ⟨text, rfl, clean⟩
    obtain ⟨front, back, rfl, all, stops⟩ := span_line skip cr text
    exact ⟨front, back ++ crlf, List.append_assoc _ _ _, all, stops, back, rfl,
      clean_of_append clean⟩

theorem consumes_line {α : Type} (made : List UInt8 → α) (past : Option UInt8)
    (bytes : List UInt8) :
    Consumes (matchUntilCrlf >>= fun line => pure (made line)) past bytes ↔
      ∃ text, bytes = text ++ crlf ∧ ¬ crlf <:+: text := by
  rw [consumes_map, consumes_matchUntilCrlf]

theorem consumes_responseLine (past : Option UInt8) (bytes : List UInt8) :
    Consumes ResponseLine.parse past bytes ↔ ResponseLineBytes bytes := by
  have reason (version : RtspVersion) (code : UInt16) (rest : List UInt8) :
      Consumes (matchUntil whitespaceMatcher >>= fun _ => matchUntilCrlf >>= fun phrase =>
        pure (ResponseLine.mk version code (withoutCrlf phrase))) past rest ↔
          ∃ text, rest = text ++ crlf ∧ ¬ crlf <:+: text :=
    consumes_skipLine whitespaceMatcher rfl _ past (fun _ => consumes_line _ past) rest
  have status (version : RtspVersion) (rest : List UInt8) :
      Consumes (StatusCode.parse >>= fun code => ReasonPhrase.parse >>= fun reason =>
        pure (ResponseLine.mk version code reason)) past rest ↔
          ∃ gap code text, rest = gap ++ (code ++ (text ++ crlf)) ∧ Blank gap ∧ Digits code ∧
            StopsAt isDigit (text ++ crlf) ∧ ¬ crlf <:+: text := by
    simp only [StatusCode.parse, ReasonPhrase.parse, matchWhitespaces, matchNumeric, bind_assoc,
      pure_bind]
    rw [consumes_until]
    constructor
    · rintro ⟨gap, _, rfl, blank, _, later⟩
      obtain ⟨code, _, rfl, digits, stops, scanned⟩ := (consumes_some _ _ _ past _).mp later
      obtain ⟨_, _, line⟩ := (consumes_orFail _ _ _ past _).mp scanned
      obtain ⟨text, rfl, clean⟩ := (reason version _ _).mp line
      exact ⟨gap, code, text, rfl, blank, digits, stops, clean⟩
    · rintro ⟨gap, code, text, rfl, blank, digits, stops, clean⟩
      obtain ⟨number, scanned⟩ := digits.scanU16
      refine ⟨gap, _, rfl, blank, stopsAt_append _ (word_stops digits fun c digit =>
        beq_eq_false_iff_ne.mpr (matched_ne digit rfl)), ?_⟩
      rw [consumes_some]
      refine ⟨code, _, rfl, digits, stops, ?_⟩
      rw [consumes_orFail]
      exact ⟨number, scanned, (reason version number _).mpr ⟨text, rfl, clean⟩⟩
  rw [ResponseLine.parse]
  simp only [rtspVersion_eq, bind_assoc]
  rw [consumes_versionFront _ _ past (consumes_numbers _ _ past status)]
  constructor
  · rintro ⟨start, _, rfl, slash, numbers, _, rfl, version, stops, gap, code, text, rfl, blank,
      digits, stopsCode, clean⟩
    refine ⟨start, numbers, gap, code, text, rfl, slash, version, ⟨?_, blank⟩, digits, stopsCode,
      clean⟩
    rintro rfl
    exact digits.1 (stopsAt_nil digits.2 stops)
  · rintro ⟨start, numbers, gap, code, text, rfl, slash, version, ⟨present, blank⟩, digits,
      stopsCode, clean⟩
    refine ⟨start, _, rfl, slash, numbers, _, rfl, version, stopsAt_append _ ?_, gap, code, text,
      rfl, blank, digits, stopsCode, clean⟩
    exact word_stops ⟨present, blank⟩ fun c space => by
      rw [eq_of_beq space]
      rfl

theorem headerNameChar_not_space (c : UInt8) (name : headerNameCharMatcher c = true) :
    whitespaceMatcher c = false := beq_eq_false_iff_ne.mpr (matched_ne name rfl)

/-- Spaces, and a line whose first byte may stand in the name of a header. -/
def HeaderLine (bytes : List UInt8) : Prop := ∃ lead c text,
  bytes = lead ++ (c :: text ++ crlf) ∧ Blank lead ∧ headerNameCharMatcher c = true ∧
    ¬ crlf <:+: c :: text

theorem consumes_header (past : Option UInt8) (bytes : List UInt8) :
    Consumes Header.parse past bytes ↔ HeaderLine bytes := by
  have value (key : List UInt8) (rest : List UInt8) :
      Consumes (matchUntil whitespaceMatcher >>= fun _ =>
        matchUntil (fun other => other == ':'.toUInt8) >>= fun _ =>
          matchUntil whitespaceMatcher >>= fun _ => matchUntilCrlf >>= fun value =>
            pure (Header.mk key (withoutCrlf value))) past rest ↔
              ∃ text, rest = text ++ crlf ∧ ¬ crlf <:+: text :=
    consumes_skipLine _ rfl _ past (fun _ => consumes_skipLine _ rfl _ past (fun _ =>
      consumes_skipLine _ rfl _ past (fun _ => consumes_line _ past))) rest
  rw [Header.parse, matchWhitespaces, consumes_until]
  constructor
  · rintro ⟨lead, _, rfl, blank, _, later⟩
    obtain ⟨key, _, rfl, ⟨present, all⟩, _, line⟩ := (consumes_some _ _ _ past _).mp later
    obtain ⟨text, rfl, clean⟩ := (value key _).mp line
    obtain ⟨c, more, rfl⟩ := List.exists_cons_of_ne_nil present
    have whole : ¬ crlf <:+: (c :: more) ++ text :=
      clean_append (fun c member => matched_ne (all c member) rfl) clean
    exact ⟨lead, c, more ++ text, by simp only [List.append_assoc, List.cons_append], blank,
      all c List.mem_cons_self, whole⟩
  · rintro ⟨lead, c, text, rfl, blank, name, clean⟩
    obtain ⟨key, back, split_, all, stops⟩ := span_line headerNameCharMatcher rfl (c :: text)
    have present : key ≠ [] := by
      rintro rfl
      rw [List.nil_append] at split_
      rw [← split_] at stops
      have one : ∀ other ∈ [c], headerNameCharMatcher other = true := by
        intro other member
        rwa [List.mem_singleton.mp member]
      exact List.cons_ne_nil c [] (stopsAt_nil one stops)
    rw [split_] at clean ⊢
    refine ⟨lead, _, rfl, blank, stopsAt_append _ (stopsAt_append _ (word_stops ⟨present, all⟩
      headerNameChar_not_space)), (consumes_some .HeaderName _ _ past _).mpr ?_⟩
    exact ⟨key, back ++ crlf, List.append_assoc _ _ _, ⟨present, all⟩, stops,
      (value key _).mpr ⟨back, rfl, clean_of_append clean⟩⟩

/-- So many header lines. -/
inductive HeaderLines : Nat → List UInt8 → Prop where
  | none : HeaderLines 0 []
  | some (count : Nat) (line rest : List UInt8) (first : HeaderLine line)
      (more : HeaderLines count rest) : HeaderLines (count + 1) (line ++ rest)

theorem consumes_headerLines_iff (count : Nat) (past : Option UInt8) (bytes : List UInt8) :
    Consumes (headerLines count) past bytes ↔ HeaderLines count bytes := by
  have header := (@closes_header (fun _ => True) fun _ _ _ => trivial).decides
  induction count generalizing bytes with
  | zero =>
      rw [headerLines, consumes_pure]
      constructor
      · rintro rfl
        exact HeaderLines.none
      · intro lines
        cases lines
        rfl
  | succ count ih =>
      rw [headerLines, header.consumes_append_iff]
      constructor
      · rintro ⟨line, rest, rfl, first, more⟩
        exact HeaderLines.some count line rest ((consumes_header past line).mp first)
          ((ih rest).mp more)
      · intro lines
        cases lines with
        | some _ line rest first more =>
            exact ⟨line, rest, rfl, (consumes_header past line).mpr first, (ih rest).mpr more⟩

/-! ## Behind interleaved frames -/

def isDollar (c : UInt8) : Bool := c == '$'.toUInt8

theorem stopsAt_behind {matcher : UInt8 → Bool} {front rest : List UInt8}
    (other : ∀ c ∈ front, matcher c = false) (stops : StopsAt matcher rest) :
    StopsAt matcher (front ++ rest) := by
  cases front with
  | nil => exact stops
  | cons c front => exact ⟨c, front ++ rest, rfl, other c List.mem_cons_self⟩

theorem blank_no_dollar {bytes : List UInt8} (blank : Blank bytes) :
    ∀ c ∈ bytes, isDollar c = false :=
  fun c member => beq_eq_false_iff_ne.mpr (matched_ne (blank c member) rfl)

theorem versionSlash_unframed {bytes : List UInt8} (slash : VersionSlash bytes) :
    StopsAt isDollar bytes := by
  obtain ⟨lead, rfl, blank⟩ := slash
  exact stopsAt_behind (blank_no_dollar blank) ⟨_, _, rfl, rfl⟩

theorem requestSlash_unframed {bytes : List UInt8} (slash : RequestSlash bytes) :
    StopsAt isDollar bytes := by
  obtain ⟨lead, method, _, _, _, rfl, blank, word, _⟩ := slash
  exact stopsAt_behind (blank_no_dollar blank) (stopsAt_append _ (word_stops word fun c ident =>
    beq_eq_false_iff_ne.mpr (matched_ne ident rfl)))

/-- A message part takes the input from behind the frames on. -/
theorem consumes_skipInterleaved {α : Type} (second : Parser α) (Takes : List UInt8 → Prop)
    (past : Option UInt8) (same : ∀ rest, Consumes second past rest ↔ Takes rest)
    (long : TakesAtLeast interleavedHeaderSize second)
    (unframed : ∀ rest, Takes rest → StopsAt isDollar rest) (bytes : List UInt8) :
    Consumes (skipInterleaved >>= fun _ => second) past bytes ↔ ∃ frames rest,
      bytes = frames ++ rest ∧ Frames frames ∧ Takes rest := by
  rw [consumes_bind _ _ past bytes
    ((@decides_skipInterleaved fun _ => True).within past bytes)]
  constructor
  · rintro ⟨offset, _, skipped, later⟩
    obtain ⟨frames, rest, rfl, rfl, framed, _, _⟩ :=
      skipInterleaved_complete past bytes offset _ skipped
    rw [List.drop_left] at later
    exact ⟨frames, rest, rfl, framed, (same rest).mp later⟩
  · rintro ⟨frames, rest, rfl, framed, takes⟩
    obtain ⟨value, accepted⟩ := (same rest).mpr takes
    obtain ⟨c, tail, rfl, other⟩ := unframed rest takes
    have enough := long past (c :: tail) _ value accepted
    have head : (c :: tail).head? ≠ some '$'.toUInt8 := fun dollar =>
      beq_eq_false_iff_ne.mp other (Option.some.inj dollar)
    refine ⟨frames.length, (), skipInterleaved_found past framed _ enough head, ?_⟩
    rw [List.drop_left]
    exact ⟨value, accepted⟩

end Compy.Rtsp
