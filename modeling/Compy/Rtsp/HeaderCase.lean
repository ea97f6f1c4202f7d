import Compy.Rtsp.RoundTrip

/-!
# The case of header names

A message and the same message with other letters in the names of its headers.  The
parsers read both alike up to the header map; from there on it matters which names are
spelled like the ones that `Compy_HeaderMap_find` is asked for.
-/

set_option autoImplicit false

namespace Compy.Rtsp

open IncrementalParsing

def toLower (c : UInt8) : UInt8 :=
  if 'A'.toUInt8 ≤ c ∧ c ≤ 'Z'.toUInt8 then c + 32 else c

theorem toLower_toNat (c : UInt8) :
    (toLower c).toNat = if 65 ≤ c.toNat ∧ c.toNat ≤ 90 then c.toNat + 32 else c.toNat := by
  have bounds : ('A'.toUInt8 ≤ c ∧ c ≤ 'Z'.toUInt8) ↔ 65 ≤ c.toNat ∧ c.toNat ≤ 90 := by
    rw [UInt8.le_iff_toNat_le, UInt8.le_iff_toNat_le]
    exact Iff.rfl
  rw [toLower, if_congr bounds rfl rfl]
  split
  · rw [UInt8.toNat_add]
    simp only [UInt8.reduceToNat]
    omega
  · rfl

theorem headerNameChar_iff (c : UInt8) : headerNameCharMatcher c = true ↔
    65 ≤ c.toNat ∧ c.toNat ≤ 90 ∨ 97 ≤ c.toNat ∧ c.toNat ≤ 122 ∨ c.toNat = 45 := by
  simp only [headerNameCharMatcher, isAlpha, Bool.or_eq_true, Bool.and_eq_true, decide_eq_true_eq,
    UInt8.le_iff_toNat_le, beq_iff_eq, ← UInt8.toNat_inj]
  exact or_assoc

theorem headerNameChar_toLower (c : UInt8) :
    headerNameCharMatcher (toLower c) = true ↔ headerNameCharMatcher c = true := by
  rw [headerNameChar_iff, headerNameChar_iff, toLower_toNat]
  split <;> omega

theorem toLower_toLower (c : UInt8) : toLower (toLower c) = toLower c := by
  apply UInt8.toNat_inj.mp
  rw [toLower_toNat (toLower c), toLower_toNat c]
  by_cases capital : 65 ≤ c.toNat ∧ c.toNat ≤ 90
  · rw [if_pos capital, if_neg (by omega)]
  · rw [if_neg capital, if_neg capital]

/-! ## Header lines -/

theorem stops_dropWhile {skip : UInt8 → Bool} (cr : skip '\r'.toUInt8 = false)
    (text : List UInt8) : StopsAt skip (text.dropWhile skip ++ crlf) := by
  cases back : text.dropWhile skip with
  | nil => exact ⟨_, _, rfl, cr⟩
  | cons c rest =>
      have first := List.head?_dropWhile_not skip text
      rw [back, List.head?_cons] at first
      exact ⟨c, rest ++ crlf, rfl, first⟩

theorem all_takeWhile (skip : UInt8 → Bool) (text : List UInt8) :
    ∀ c ∈ text.takeWhile skip, skip c = true :=
  fun _ member => List.mem_takeWhile_imp member

theorem reads_skipLine {α : Type} {skip : UInt8 → Bool} {second : List UInt8 → Parser α}
    (cr : skip '\r'.toUInt8 = false) (text : List UInt8) {result : α}
    (two : Reads Anything (second (text.takeWhile skip)) (text.dropWhile skip ++ crlf) result) :
    Reads Anything (matchUntil skip >>= second) (text ++ crlf) result := by
  have read := reads_skip (all_takeWhile skip text)
    (fun rest _ => stopsAt_append rest (stops_dropWhile cr text)) two
  rwa [← List.append_assoc, List.takeWhile_append_dropWhile] at read

theorem clean_dropWhile {text : List UInt8} (skip : UInt8 → Bool) (clean : ¬ crlf <:+: text) :
    ¬ crlf <:+: text.dropWhile skip :=
  fun inside => clean (inside.trans (List.dropWhile_suffix skip).isInfix)

/-- A header line with the name that the parser takes, and what is around it. -/
structure NameLine where
  lead : List UInt8
  key : List UInt8
  tail : List UInt8
  blank : Blank lead
  name : key ≠ [] ∧ ∀ c ∈ key, headerNameCharMatcher c = true
  stops : StopsAt headerNameCharMatcher (tail ++ crlf)
  clean : ¬ crlf <:+: tail

namespace NameLine

def value (self : NameLine) : List UInt8 :=
  ((self.tail.dropWhile whitespaceMatcher).dropWhile (fun other => other == ':'.toUInt8)).dropWhile
    whitespaceMatcher

def header (self : NameLine) : Header := { key := self.key, value := self.value }

def bytes (self : NameLine) : List UInt8 := self.lead ++ (self.key ++ (self.tail ++ crlf))

theorem reads (self : NameLine) : Reads Anything Header.parse self.bytes self.header := by
  refine reads_skip self.blank (fun rest _ => ?_) ?_
  · rw [List.append_assoc]
    exact stopsAt_append _ (word_stops self.name headerNameChar_not_space)
  refine (reads_matchSome .HeaderName headerNameCharMatcher self.key self.name.1 self.name.2).bind
    ?_ fun rest _ => stopsAt_append rest self.stops
  refine reads_skipLine rfl self.tail (reads_skipLine rfl _ (reads_skipLine rfl _ ?_))
  refine (reads_matchUntilCrlf self.value ?_).bind_pure ?_
  · exact clean_dropWhile _ (clean_dropWhile _ (clean_dropWhile _ self.clean))
  · rw [withoutCrlf_line]
    rfl

theorem ends (self : NameLine) : self.bytes.getLast? = some '\n'.toUInt8 := by
  rw [bytes, ← List.append_assoc, ← List.append_assoc]
  exact getLast?_of_suffix rfl (List.suffix_append _ crlf)

def text (self : NameLine) : HeaderText := ⟨self.bytes, self.header, self.reads, self.ends⟩

/-- The same line with its name in small letters. -/
def lower (self : NameLine) : NameLine where
  lead := self.lead
  key := self.key.map toLower
  tail := self.tail
  blank := self.blank
  name := by
    refine ⟨fun empty => self.name.1 (List.map_eq_nil_iff.mp empty), fun c member => ?_⟩
    obtain ⟨letter, inKey, rfl⟩ := List.mem_map.mp member
    exact (headerNameChar_toLower letter).mpr (self.name.2 letter inKey)
  stops := self.stops
  clean := self.clean

end NameLine

/-- Lines that differ in the case of the letters of the name. -/
structure SameButCase (line line' : NameLine) : Prop where
  lead : line'.lead = line.lead
  key : line'.key.map toLower = line.key.map toLower
  tail : line'.tail = line.tail

theorem sameButCase_lower (line : NameLine) : SameButCase line line.lower where
  lead := rfl
  key := by
    rw [NameLine.lower, List.map_map]
    exact List.map_congr_left fun c _ => toLower_toLower c
  tail := rfl

theorem SameButCase.length {line line' : NameLine} (same : SameButCase line line') :
    line'.bytes.length = line.bytes.length := by
  have keys := congrArg List.length same.key
  rw [List.length_map, List.length_map] at keys
  simp only [NameLine.bytes, List.length_append, same.lead, same.tail, keys]

theorem SameButCase.value {line line' : NameLine} (same : SameButCase line line') :
    line'.value = line.value := by
  rw [NameLine.value, same.tail]
  rfl

theorem header_lines (past : Option UInt8) (input : List UInt8) (offset : Nat) (header : Header)
    (accepted : Header.parse past input = .Complete offset header) :
    ∃ (line : NameLine) (rest : List UInt8), input = line.bytes ++ rest ∧
      offset = line.bytes.length ∧ header = line.header := by
  have decides := (@closes_header (fun _ => True) fun _ _ _ => trivial).decides
  have whole : Consumes Header.parse past (input.take offset) := by
    have inside := decides.within past input offset header accepted
    refine ⟨header, ?_⟩
    rw [List.length_take, Nat.min_eq_left inside]
    exact decides.stable past input offset header accepted past _ List.prefix_rfl trivial
  obtain ⟨lead, c, text, split_, blank, name, clean⟩ := (consumes_header past _).mp whole
  obtain ⟨key, tail, same, all, stops⟩ := span_line headerNameCharMatcher rfl (c :: text)
  have present : key ≠ [] := by
    rintro rfl
    rw [List.nil_append] at same
    rw [← same] at stops
    obtain ⟨_, _, first, other⟩ := stops
    cases first
    rw [name] at other
    cases other
  rw [same] at clean
  have front : input.take offset = lead ++ (key ++ (tail ++ crlf)) := by
    rw [split_, same, List.append_assoc]
  refine ⟨⟨lead, key, tail, blank, ⟨present, all⟩, stops, clean_of_append clean⟩,
    input.drop offset, ?_⟩
  generalize made : NameLine.mk lead key tail blank ⟨present, all⟩ stops (clean_of_append clean) =
    line
  have taken : input.take offset = line.bytes := by
    rw [← made]
    exact front
  have split' : input = line.bytes ++ input.drop offset := by
    rw [← taken, List.take_append_drop]
  have read := line.reads past (input.drop offset) trivial
  rw [← split', accepted] at read
  cases read
  exact ⟨split', rfl, rfl⟩

def linesBytes (lines : List NameLine) : List UInt8 := textBytes (lines.map NameLine.text)

theorem map_header (lines : List NameLine) :
    (lines.map NameLine.text).map HeaderText.header = lines.map NameLine.header := by
  rw [List.map_map]
  rfl

/-- What the loop accepts is header lines and an empty line. -/
theorem headerMapLoop_accepts (left : Nat) (self : HeaderMap)
    (sum : self.headers.length + left = headerMapCapacity) (past : Option UInt8)
    (input : List UInt8) (offset : Nat) (map : HeaderMap)
    (accepted : HeaderMap.parseLoop left self sum past input = .Complete offset map) :
    ∃ lines rest, input = linesBytes lines ++ (crlf ++ rest) ∧
      offset = (linesBytes lines ++ crlf).length ∧
      map.headers = self.headers ++ lines.map NameLine.header := by
  induction left generalizing self input offset with
  | zero =>
      rcases headerMap_atEnd_complete self _ past input offset map accepted with
        ⟨_, ⟨⟨rest, rfl⟩, rfl, rfl⟩ | ⟨_, later⟩⟩
      · exact ⟨[], rest, rfl, rfl, (List.append_nil _).symm⟩
      · cases later
  | succ left ih =>
      rcases headerMap_atEnd_complete self _ past input offset map accepted with
        ⟨_, ⟨⟨rest, rfl⟩, rfl, rfl⟩ | ⟨_, later⟩⟩
      · exact ⟨[], rest, rfl, rfl, (List.append_nil _).symm⟩
      · obtain ⟨taken, header, own, first, more, rfl⟩ :=
          (bind_eq_complete _ _ past input offset map).mp later
        obtain ⟨line, back, rfl, rfl, rfl⟩ := header_lines past input taken header first
        rw [List.drop_left] at more
        obtain ⟨lines, rest, rfl, rfl, headers⟩ := ih _ _ back own more
        refine ⟨line :: lines, rest, ?_, ?_, ?_⟩
        · rw [← List.append_assoc]
          rfl
        · rw [← List.length_append, ← List.append_assoc]
          rfl
        · rw [headers, HeaderMap.append, List.append_assoc]
          rfl

/-! ## Messages -/

def messageBytes (frames line : List UInt8) (lines : List NameLine) (rest : List UInt8) :
    List UInt8 :=
  frames ++ (line ++ (linesBytes lines ++ (crlf ++ rest)))

section

variable {Line : Type} {parseLine : Parser Line} {slash : Parser (List UInt8)}
  {Slash LineBytes : List UInt8 → Prop} (starts : StartsMessage parseLine slash Slash LineBytes)

include starts

theorem reads_startLine (past : Option UInt8) (line : List UInt8) (bytes : LineBytes line) :
    ∃ startLine, ∀ rest, parseLine past (line ++ rest) = .Complete line.length startLine := by
  obtain ⟨startLine, accepted⟩ := (starts.line_iff past line).mpr bytes
  have decides := (starts.closes (fun _ => True) fun _ _ _ => trivial).decides
  refine ⟨startLine, fun rest => ?_⟩
  refine decides.stable past line line.length startLine accepted past _ ?_ trivial
  rw [Nat.add_zero, List.take_length]
  exact List.prefix_append line rest

theorem StartsMessage.taken {past : Option UInt8} {input : List UInt8} {offset : Nat}
    {startLine : Line} (accepted : parseLine past input = .Complete offset startLine) :
    LineBytes (input.take offset) := by
  have decides := (starts.closes (fun _ => True) fun _ _ _ => trivial).decides
  apply (starts.line_iff past _).mp
  refine ⟨startLine, ?_⟩
  rw [List.length_take, Nat.min_eq_left (decides.within past input offset startLine accepted)]
  exact decides.stable past input offset startLine accepted past _ List.prefix_rfl trivial

theorem message_upTo (past : Option UInt8) {frames line : List UInt8} (framed : Frames frames)
    (bytes : LineBytes line) :
    ∃ startLine, ∀ tail, parseMessage parseLine past (frames ++ (line ++ tail)) =
      (((HeaderMap.parse >>= finishMessage startLine) past tail).shift line.length).shift
        frames.length := by
  obtain ⟨startLine, read⟩ := reads_startLine starts past line bytes
  have long : interleavedHeaderSize ≤ line.length := by
    have taken := read []
    exact starts.long past _ _ startLine taken
  have unframed := starts.line_unframed line bytes
  have skip (tail : List UInt8) :
      skipInterleaved past (frames ++ (line ++ tail)) = .Complete frames.length () := by
    refine skipInterleaved_found past framed _ (by rw [List.length_append]; omega) ?_
    obtain ⟨c, more, rfl, other⟩ := unframed
    intro dollar
    rw [List.cons_append, List.head?_cons, Option.some.injEq] at dollar
    rw [dollar] at other
    contradiction
  refine ⟨startLine, fun tail => ?_⟩
  rw [parseMessage, bind_complete _ _ past _ _ _ (skip tail), List.drop_left,
    bind_complete _ _ past _ _ _ (read tail), List.drop_left]
  rfl

theorem message_named (past : Option UInt8) {frames line : List UInt8} (framed : Frames frames)
    (bytes : LineBytes line) (rest : List UInt8) (notCr : NotCr (crlf ++ rest)) :
    ∃ startLine, ∀ lines : List NameLine,
      (lines.length ≤ headerMapCapacity → ∃ map : HeaderMap,
        map.headers = lines.map NameLine.header ∧
        parseMessage parseLine past (messageBytes frames line lines rest) =
          (finishMessage startLine map past rest).shift
            (frames ++ (line ++ (linesBytes lines ++ crlf))).length) ∧
      (headerMapCapacity < lines.length →
        parseMessage parseLine past (messageBytes frames line lines rest) =
          .Failure .HeaderMapOverflow) := by
  obtain ⟨startLine, upTo⟩ := message_upTo starts past framed bytes
  refine ⟨startLine, fun lines => ⟨fun room => ?_, fun many => ?_⟩⟩
  · obtain ⟨map, headers, parsed⟩ := headerMapLoop_lines (lines.map NameLine.text)
      headerMapCapacity HeaderMap.empty (Nat.zero_add _) (by rwa [List.length_map]) past rest notCr
    rw [map_header] at headers
    have mapped : HeaderMap.parse past (linesBytes lines ++ (crlf ++ rest)) =
        .Complete (linesBytes lines ++ crlf).length map := parsed
    refine ⟨map, headers, ?_⟩
    rw [messageBytes, upTo, bind_complete _ _ past _ _ _ mapped, ← List.append_assoc,
      List.drop_left, shift_shift, shift_shift]
    simp only [List.length_append, Nat.add_assoc]
  · have full := headerMapLoop_crowded (lines.map NameLine.text) headerMapCapacity HeaderMap.empty
      (Nat.zero_add _) (by rwa [List.length_map]) past _ notCr
    have overflows : HeaderMap.parse past (linesBytes lines ++ (crlf ++ rest)) =
      .Failure .HeaderMapOverflow := full
    rw [messageBytes, upTo, bind_apply, overflows]
    rfl

end

theorem finishMessage_complete {Line : Type} (startLine : Line) (map : HeaderMap)
    (past : Option UInt8) (rest : List UInt8) (offset : Nat) (message : Message Line) :
    finishMessage startLine map past rest = .Complete offset message ↔
      ∃ lengthTaken length bodyTaken body cseqTaken cseq,
        contentLength map past rest = .Complete lengthTaken length ∧
        MessageBody.parse length past (rest.drop lengthTaken) = .Complete bodyTaken body ∧
        cseqNumber map past ((rest.drop lengthTaken).drop bodyTaken) = .Complete cseqTaken cseq ∧
        offset = lengthTaken + (bodyTaken + (cseqTaken + 0)) ∧
        message = { startLine := startLine, headerMap := map, body := body, cseq := cseq } := by
  simp only [finishMessage, bind_eq_complete]
  constructor
  · rintro ⟨lengthTaken, length, _, computed, ⟨bodyTaken, body, _, read, ⟨cseqTaken, cseq, _,
      number, last, rfl⟩, rfl⟩, rfl⟩
    cases last
    exact ⟨lengthTaken, length, bodyTaken, body, cseqTaken, cseq, computed, read, number, rfl, rfl⟩
  · rintro ⟨lengthTaken, length, bodyTaken, body, cseqTaken, cseq, computed, read, number, rfl, rfl⟩
    exact ⟨lengthTaken, length, _, computed, ⟨bodyTaken, body, _, read,
      ⟨cseqTaken, cseq, 0, number, rfl, rfl⟩, rfl⟩, rfl⟩

theorem finishMessage_congr {Line : Type} (startLine : Line) {map map' : HeaderMap}
    (same : ∀ key, map'.find key = map.find key) (past : Option UInt8) (rest : List UInt8)
    (offset : Nat) (message : Message Line)
    (accepted : finishMessage startLine map past rest = .Complete offset message) :
    finishMessage startLine map' past rest =
      .Complete offset { message with headerMap := map' } := by
  have lengths : contentLength map' = contentLength map := by
    rw [contentLength, contentLength, same]
  have numbers : cseqNumber map' = cseqNumber map := by
    rw [cseqNumber, cseqNumber, same]
  obtain ⟨lengthTaken, length, bodyTaken, body, cseqTaken, cseq, computed, read, number, total,
    rfl⟩ := (finishMessage_complete _ _ _ _ _ _).mp accepted
  exact (finishMessage_complete _ _ _ _ _ _).mpr ⟨lengthTaken, length, bodyTaken, body, cseqTaken,
    cseq, by rw [lengths, computed], read, by rw [numbers, number], total, rfl⟩

theorem accepted_cseq {Line : Type} (parseLine : Parser Line) (past : Option UInt8)
    (input : List UInt8) (offset : Nat) (message : Message Line)
    (accepted : parseMessage parseLine past input = .Complete offset message) :
    message.headerMap.find headerCSeq ≠ none := by
  obtain ⟨_, _, _, startLine, _, map, _, _, _, _, _, finished⟩ := message_complete accepted
  obtain ⟨_, _, _, _, _, _, _, _, number, _, rfl⟩ :=
    (finishMessage_complete startLine map past _ _ message).mp finished
  intro missing
  rw [cseqNumber, show map.find headerCSeq = none from missing] at number
  contradiction

def firstValue (lines : List NameLine) (name : List UInt8) : Option (List UInt8) :=
  (lines.find? fun line => line.key == name).map NameLine.value

theorem find_eq_firstValue {map : HeaderMap} {lines : List NameLine}
    (headers : map.headers = lines.map NameLine.header) (name : List UInt8) :
    map.find name = firstValue lines name := by
  rw [HeaderMap.find, headers, List.find?_map, firstValue, Option.map_map]
  rfl

/-- Where the name of a line has changed, its old and its new spelling have the values they had. -/
def Unnoticed (lines lines' : List NameLine) : Prop :=
  ∀ line line', (line, line') ∈ lines.zip lines' → line.key ≠ line'.key →
    firstValue lines' line.key = firstValue lines line.key ∧
      firstValue lines' line'.key = firstValue lines line'.key

theorem firstValue_cons (line : NameLine) (lines : List NameLine) (name : List UInt8) :
    firstValue (line :: lines) name =
      if line.key = name then some line.value else firstValue lines name := by
  rw [firstValue, List.find?_cons]
  by_cases named : line.key = name
  · rw [if_pos named, beq_iff_eq.mpr named]
    rfl
  · rw [if_neg named, beq_eq_false_iff_ne.mpr named]
    rfl

/-- A name that no line has changed from or to keeps its value. -/
theorem firstValue_unchanged {lines lines' : List NameLine}
    (same : List.Forall₂ SameButCase lines lines') (name : List UInt8)
    (other : ∀ line line', (line, line') ∈ lines.zip lines' → line.key ≠ line'.key →
      line.key ≠ name ∧ line'.key ≠ name) : firstValue lines' name = firstValue lines name := by
  induction same with
  | nil => rfl
  | @cons line line' lines lines' first _ ih =>
      have later := ih fun line line' member => other line line' (List.mem_cons_of_mem _ member)
      rw [firstValue_cons, firstValue_cons, later]
      by_cases changed : line.key = line'.key
      · rw [changed, first.value]
      · obtain ⟨old, new⟩ := other line line' List.mem_cons_self changed
        rw [if_neg old, if_neg new]

theorem firstValue_iff {lines lines' : List NameLine}
    (same : List.Forall₂ SameButCase lines lines') :
    (∀ name, firstValue lines' name = firstValue lines name) ↔ Unnoticed lines lines' := by
  constructor
  · exact fun values line line' _ _ => ⟨values line.key, values line'.key⟩
  · intro unnoticed name
    by_cases spelled : ∃ line line', (line, line') ∈ lines.zip lines' ∧ line.key ≠ line'.key ∧
        (line.key = name ∨ line'.key = name)
    · obtain ⟨line, line', member, changed, rfl | rfl⟩ := spelled
      · exact (unnoticed line line' member changed).1
      · exact (unnoticed line line' member changed).2
    · refine firstValue_unchanged same name fun line line' member changed => ?_
      constructor
      · exact fun old => spelled ⟨line, line', member, changed, Or.inl old⟩
      · exact fun new => spelled ⟨line, line', member, changed, Or.inr new⟩

/-- A request, and the request with other letters in the names of its headers. -/
structure Respelled (input input' : List UInt8) (lines lines' : List NameLine) : Prop where
  layout : ∃ frames line rest, Frames frames ∧ RequestLineBytes line ∧
    input = messageBytes frames line lines rest ∧ input' = messageBytes frames line lines' rest
  case : List.Forall₂ SameButCase lines lines'

/-- The other input is a request as well, and only the names in its header map differ. -/
def SameAnswer (past : Option UInt8) (offset : Nat) (message : Request) (input' : List UInt8) :
    Prop :=
  ∃ message', Request.parse past input' = .Complete offset message' ∧
    message'.startLine = message.startLine ∧ message'.cseq = message.cseq ∧
    message'.body = message.body ∧
    ∀ key, message'.headerMap.find key = message.headerMap.find key

theorem linesBytes_length {lines lines' : List NameLine}
    (same : List.Forall₂ SameButCase lines lines') :
    (linesBytes lines').length = (linesBytes lines).length := by
  induction same with
  | nil => rfl
  | cons first _ ih =>
      rw [linesBytes, linesBytes, List.map_cons, List.map_cons, textBytes_cons, textBytes_cons,
        List.length_append, List.length_append]
      exact congrArg₂ _ first.length ih

theorem crlf_notCr {frames line : List UInt8} {lines : List NameLine} {rest : List UInt8}
    (notCr : NotCr (messageBytes frames line lines rest)) : NotCr (crlf ++ rest) := by
  have whole : messageBytes frames line lines rest =
      (frames ++ (line ++ linesBytes lines)) ++ (crlf ++ rest) := by
    simp only [messageBytes, List.append_assoc]
  have behind := notCr.drop _ (frames ++ (line ++ linesBytes lines)).length
  rwa [whole, List.drop_left] at behind

/-- A recased request is answered alike exactly when every spelling of a name leads to the
same value as before. -/
theorem sameAnswer_iff (past : Option UInt8) (input input' : List UInt8) (offset : Nat)
    (message : Request) (lines lines' : List NameLine)
    (accepted : Request.parse past input = .Complete offset message)
    (respelled : Respelled input input' lines lines') :
    (SameAnswer past offset message input' ↔
        ∀ name, firstValue lines' name = firstValue lines name) ∧
      message.headerMap.headers = lines.map NameLine.header := by
  obtain ⟨⟨frames, line, rest, framed, bytes, rfl, rfl⟩, same⟩ := respelled
  have notCr := crlf_notCr (message_notCr RequestLine.parse past _ offset message accepted)
  obtain ⟨startLine, named⟩ := message_named requestLine_starts past framed bytes rest notCr
  have room : lines.length ≤ headerMapCapacity := by
    by_contra many
    have full := (named lines).2 (Nat.lt_of_not_le many)
    rw [← Request.parse, accepted] at full
    contradiction
  obtain ⟨map, headers, parsed⟩ := (named lines).1 room
  obtain ⟨map', headers', parsed'⟩ := (named lines').1 (same.length_eq ▸ room)
  rw [← Request.parse] at parsed parsed'
  have moved : (frames ++ (line ++ (linesBytes lines' ++ crlf))).length =
      (frames ++ (line ++ (linesBytes lines ++ crlf))).length := by
    simp only [List.length_append, linesBytes_length same]
  rw [moved] at parsed'
  obtain ⟨own, finished, rfl⟩ := (shift_eq_complete _ _ offset message).mp (parsed ▸ accepted)
  obtain ⟨_, _, _, body, _, cseq, _, _, _, _, made⟩ :=
    (finishMessage_complete startLine map past rest own message).mp finished
  have mapped : message.headerMap = map := by rw [made]
  refine ⟨?_, by rw [mapped, headers]⟩
  constructor
  · rintro ⟨message', accepted', _, _, _, found⟩ name
    obtain ⟨_, finished', _⟩ := (shift_eq_complete _ _ _ message').mp (parsed' ▸ accepted')
    obtain ⟨_, _, _, _, _, _, _, _, _, _, rfl⟩ :=
      (finishMessage_complete startLine map' past rest _ message').mp finished'
    rw [← find_eq_firstValue headers', ← find_eq_firstValue headers, ← mapped]
    exact found name
  · intro values
    have found (name : List UInt8) : map'.find name = map.find name := by
      rw [find_eq_firstValue headers', find_eq_firstValue headers, values]
    have again := finishMessage_congr startLine found past rest own message finished
    refine ⟨{ message with headerMap := map' }, ?_, rfl, rfl, rfl, ?_⟩
    · rw [parsed', again, Outcome.shift]
    · rw [mapped]
      exact found

theorem accepted_named (past : Option UInt8) (input : List UInt8) (offset : Nat)
    (message : Request) (accepted : Request.parse past input = .Complete offset message) :
    ∃ frames line lines rest, Frames frames ∧ RequestLineBytes line ∧
      input = messageBytes frames line lines rest := by
  obtain ⟨frames, tail, taken, _, mapped, map, _, rfl, framed, read, parsed, _⟩ :=
    message_complete accepted
  obtain ⟨lines, rest, split_, _, _⟩ := headerMapLoop_accepts _ _ _ past _ mapped map parsed
  refine ⟨frames, tail.take taken, lines, rest, framed, requestLine_starts.taken read, ?_⟩
  rw [messageBytes, ← split_, List.take_append_drop]

theorem firstValue_lower (lines : List NameLine) :
    firstValue (lines.map NameLine.lower) headerCSeq = none := by
  rw [firstValue, Option.map_eq_none_iff, List.find?_eq_none]
  intro line member
  obtain ⟨original, _, rfl⟩ := List.mem_map.mp member
  rw [beq_iff_eq]
  intro spelled
  have capital : 'C'.toUInt8 ∈ original.key.map toLower := by
    rw [show original.key.map toLower = headerCSeq from spelled]
    exact List.mem_cons_self
  obtain ⟨letter, _, small⟩ := List.mem_map.mp capital
  have value := toLower_toNat letter
  rw [small, show 'C'.toUInt8.toNat = 67 from rfl] at value
  split at value <;> omega

/-- On every accepted request the case of the header names matters: with its names in small
letters it has no `CSeq` any more. -/
theorem respelled_iff (past : Option UInt8) (input : List UInt8) (offset : Nat)
    (message : Request) (accepted : Request.parse past input = .Complete offset message) :
    (∀ input' lines lines', Respelled input input' lines lines' →
      (SameAnswer past offset message input' ↔ Unnoticed lines lines')) ∧
      ∃ input' lines lines', Respelled input input' lines lines' ∧
        ¬ SameAnswer past offset message input' := by
  refine ⟨fun input' lines lines' respelled => ?_, ?_⟩
  · rw [← firstValue_iff respelled.case]
    exact (sameAnswer_iff past input input' offset message lines lines' accepted respelled).1
  obtain ⟨frames, line, lines, rest, framed, bytes, layout⟩ :=
    accepted_named past input offset message accepted
  have respelled : Respelled input (messageBytes frames line (lines.map NameLine.lower) rest) lines
      (lines.map NameLine.lower) := by
    refine ⟨⟨frames, line, rest, framed, bytes, layout, rfl⟩, ?_⟩
    rw [List.forall₂_map_right_iff, List.forall₂_same]
    exact fun other _ => sameButCase_lower other
  refine ⟨_, lines, _, respelled, fun same => ?_⟩
  obtain ⟨iff, headers⟩ := sameAnswer_iff past input _ offset message lines _ accepted respelled
  have lost := iff.mp same headerCSeq
  rw [firstValue_lower, ← find_eq_firstValue headers] at lost
  exact accepted_cseq RequestLine.parse past input offset message accepted lost.symm

def spelledRequest (name : String) : List UInt8 :=
  charSlice "OPTIONS * RTSP/1.0\r\n" ++ (charSlice name ++ charSlice ": 1\r\n\r\n")

def spelledMessage : Request where
  startLine := ⟨charSlice "OPTIONS", charSlice "*", ⟨1, 0⟩⟩
  headerMap := ⟨[⟨headerCSeq, charSlice "1"⟩], oneHeader_bounded⟩
  body := []
  cseq := 1

theorem spelledRequest_accepted :
    Request.parse none (spelledRequest "CSeq") = .Complete 31 spelledMessage := by
  rw [Request.parse, message_unframed _ none _ (by decide) (by decide)]
  rfl

theorem spelledRequest_named :
    (∀ input' lines lines', Respelled (spelledRequest "CSeq") input' lines lines' →
      (SameAnswer none 31 spelledMessage input' ↔ Unnoticed lines lines')) ∧
      ∃ input' lines lines', Respelled (spelledRequest "CSeq") input' lines lines' ∧
        ¬ SameAnswer none 31 spelledMessage input' :=
  respelled_iff none (spelledRequest "CSeq") 31 spelledMessage spelledRequest_accepted

def cseqLine : NameLine where
  lead := []
  key := headerCSeq
  tail := charSlice ": 1"
  blank := blank_nil
  name := ⟨List.cons_ne_nil _ _, List.all_eq_true.mp rfl⟩
  stops := ⟨_, _, rfl, rfl⟩
  clean := by decide

/-- The header line in small letters is not found. -/
theorem spelledRequest_lost :
    Respelled (spelledRequest "CSeq") (spelledRequest "cseq") [cseqLine] [cseqLine.lower] ∧
      Request.parse none (spelledRequest "CSeq") = .Complete 31 spelledMessage ∧
      Request.parse none (spelledRequest "cseq") = .Failure .MissingCSeq ∧
      ¬ SameAnswer none 31 spelledMessage (spelledRequest "cseq") := by
  have lost : Request.parse none (spelledRequest "cseq") = .Failure .MissingCSeq := by
    rw [Request.parse, message_unframed _ none _ (by decide) (by decide)]
    rfl
  have line : RequestLineBytes (charSlice "OPTIONS * RTSP/1.0\r\n") :=
    (consumes_requestLine none _).mp ⟨_, rfl⟩
  refine ⟨⟨⟨[], _, [], Frames.none, line, rfl, rfl⟩, .cons (sameButCase_lower _) .nil⟩,
    spelledRequest_accepted, lost, ?_⟩
  rintro ⟨message', accepted, _⟩
  rw [lost] at accepted
  contradiction

end Compy.Rtsp
