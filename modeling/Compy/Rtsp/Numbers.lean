import Compy.Rtsp.HeaderCase
import Compy.Rtsp.TransportHeader

/-!
# Numbers that do not fit

The parsers match any number of digits and hand them to `sscanf`, which cuts the result
down to the field.  What is stored is the number written exactly where that fits.
-/

set_option autoImplicit false

namespace Compy.Rtsp

open IncrementalParsing

def FitsBits (width : Nat) (digits : List UInt8) : Prop := digitsValue digits < 2 ^ width

/-! ## Conversions -/

/-- Saturating at 64 bits and then cutting down to fewer keeps the numbers that fit. -/
theorem strtoul_mod_iff (width magnitude : Nat) (narrow : width < 64) :
    (strtoul false magnitude).toNat % 2 ^ width = magnitude ↔ magnitude < 2 ^ width := by
  have bound : 2 ^ width < 2 ^ 64 := Nat.pow_lt_pow_right (by decide) narrow
  have positive : 0 < 2 ^ width := Nat.pow_pos (by decide)
  rw [strtoul]
  split
  · rename_i large
    have below := Nat.mod_lt (UInt64.ofNat (2 ^ 64 - 1)).toNat positive
    constructor <;> intro _ <;> omega
  · rename_i small
    have below : magnitude < 2 ^ 64 := by omega
    rw [if_neg Bool.false_ne_true, UInt64.toNat_ofNat', Nat.mod_eq_of_lt below]
    constructor
    · intro same
      rw [← same]
      exact Nat.mod_lt _ positive
    · exact Nat.mod_eq_of_lt

theorem toUInt8_eq_iff (magnitude : Nat) :
    (strtoul false magnitude).toUInt8.toNat = magnitude ↔ magnitude < 2 ^ 8 := by
  rw [UInt64.toNat_toUInt8]
  exact strtoul_mod_iff 8 magnitude (by decide)

theorem toUInt16_eq_iff (magnitude : Nat) :
    (strtoul false magnitude).toUInt16.toNat = magnitude ↔ magnitude < 2 ^ 16 := by
  rw [UInt64.toNat_toUInt16]
  exact strtoul_mod_iff 16 magnitude (by decide)

theorem toUInt32_eq_iff (magnitude : Nat) :
    (strtoul false magnitude).toUInt32.toNat = magnitude ↔ magnitude < 2 ^ 32 := by
  rw [UInt64.toNat_toUInt32]
  exact strtoul_mod_iff 32 magnitude (by decide)

namespace Digits

variable {digits : List UInt8} (all : Digits digits)

include all

theorem scanned {α : Type} (convert : UInt64 → α) {number : α}
    (scan : ((scanInteger digits).map fun number => convert (strtoul number.1 number.2)) =
      some number) : number = convert (strtoul false (digitsValue digits)) := by
  rw [scanInteger_digits digits all.1 all.2, Option.map_some, Option.some.injEq] at scan
  exact scan.symm

theorem scanU8_exact {number : UInt8} (scan : Rtsp.scanU8 digits = some number) :
    number.toNat = digitsValue digits ↔ FitsBits 8 digits := by
  rw [all.scanned UInt64.toUInt8 scan]
  exact toUInt8_eq_iff _

theorem scanU16_exact {number : UInt16} (scan : Rtsp.scanU16 digits = some number) :
    number.toNat = digitsValue digits ↔ FitsBits 16 digits := by
  rw [all.scanned UInt64.toUInt16 scan]
  exact toUInt16_eq_iff _

theorem scanU32_exact {number : UInt32} (scan : Rtsp.scanU32 digits = some number) :
    number.toNat = digitsValue digits ↔ FitsBits 32 digits := by
  rw [all.scanned UInt64.toUInt32 scan]
  exact toUInt32_eq_iff _

end Digits

/-! ## Where the numbers stand -/

theorem complete_until {α : Type} {matcher : UInt8 → Bool} {second : List UInt8 → Parser α}
    {past : Option UInt8} {input : List UInt8} {offset : Nat} {value : α}
    (accepted : (matchUntil matcher >>= second) past input = .Complete offset value) :
    ∃ front rest own, input = front ++ rest ∧ (∀ c ∈ front, matcher c = true) ∧
      StopsAt matcher rest ∧ second front past rest = .Complete own value ∧
      offset = front.length + own := by
  obtain ⟨_, front, own, first, later, rfl⟩ := (bind_eq_complete _ _ past input _ value).mp accepted
  obtain ⟨rfl, all, c, rest, rfl, stop⟩ := matchUntil_complete matcher past input _ front first
  rw [List.drop_left] at later
  exact ⟨front, c :: rest, own, rfl, all, ⟨c, rest, rfl, stop⟩, later, rfl⟩

theorem complete_some {α : Type} {kind : ParseType} {matcher : UInt8 → Bool}
    {second : List UInt8 → Parser α} {past : Option UInt8} {input : List UInt8} {offset : Nat}
    {value : α}
    (accepted : (matchSome kind matcher >>= second) past input = .Complete offset value) :
    ∃ front rest own, input = front ++ rest ∧ (front ≠ [] ∧ ∀ c ∈ front, matcher c = true) ∧
      StopsAt matcher rest ∧ second front past rest = .Complete own value ∧
      offset = front.length + own := by
  obtain ⟨_, front, own, first, later, rfl⟩ := (bind_eq_complete _ _ past input _ value).mp accepted
  obtain ⟨until_, c, more, head, wanted⟩ := matchSome_complete kind matcher past input _ front first
  obtain ⟨rfl, all, d, rest, rfl, stop⟩ := matchUntil_complete matcher past input _ front until_
  rw [List.drop_left] at later
  refine ⟨front, d :: rest, own, rfl, ⟨?_, all⟩, ⟨d, rest, rfl, stop⟩, later, rfl⟩
  intro empty
  rw [empty] at head
  exact matched_ne wanted stop (List.cons.inj head).1.symm

theorem complete_str {α : Type} {str : List UInt8} {second : List UInt8 → Parser α}
    {past : Option UInt8} {input : List UInt8} {offset : Nat} {value : α}
    (accepted : (matchStr str >>= second) past input = .Complete offset value) :
    ∃ rest own, input = str ++ rest ∧ second str past rest = .Complete own value ∧
      offset = str.length + own := by
  obtain ⟨_, _, own, first, later, rfl⟩ := (bind_eq_complete _ _ past input _ value).mp accepted
  obtain ⟨rfl, rfl, rest, rfl⟩ := matchStr_complete str past input _ _ first
  rw [List.drop_left] at later
  exact ⟨rest, own, rfl, later, rfl⟩

theorem complete_orFail {α γ : Type} {error : ParseError} {value : Option α}
    {second : α → Parser γ} {past : Option UInt8} {input : List UInt8} {offset : Nat} {result : γ}
    (accepted : (Parser.orFail error value >>= second) past input = .Complete offset result) :
    ∃ given, value = some given ∧ second given past input = .Complete offset result := by
  cases value with
  | none => cases accepted
  | some given =>
      rw [Parser.orFail, pure_bind] at accepted
      exact ⟨given, rfl, accepted⟩

def Dots (bytes : List UInt8) : Prop := bytes ≠ [] ∧ ∀ c ∈ bytes, (c == '.'.toUInt8) = true

theorem version_numbers {past : Option UInt8} {input : List UInt8} {offset : Nat}
    {version : RtspVersion} (accepted : RtspVersion.parse past input = .Complete offset version) :
    ∃ lead major dots minor rest,
      input = lead ++ (rtspSlash ++ (major ++ (dots ++ (minor ++ rest)))) ∧ Blank lead ∧
        Digits major ∧ Dots dots ∧ Digits minor ∧
        offset = (lead ++ (rtspSlash ++ (major ++ (dots ++ minor)))).length ∧
        scanU8 major = some version.major ∧ scanU8 minor = some version.minor := by
  rw [RtspVersion.parse, matchWhitespaces, matchNumeric, matchChar] at accepted
  obtain ⟨lead, _, _, rfl, blank, _, atSlash, rfl⟩ := complete_until accepted
  obtain ⟨_, _, rfl, atMajor, rfl⟩ := complete_str atSlash
  obtain ⟨major, _, _, rfl, digits, stops, atDots, rfl⟩ := complete_some atMajor
  obtain ⟨dots, _, _, rfl, all, _, atMinor, rfl⟩ := complete_until atDots
  obtain ⟨minor, rest, _, rfl, digits', _, converts, rfl⟩ := complete_some atMinor
  obtain ⟨majorInt, scan, converts'⟩ := complete_orFail converts
  obtain ⟨minorInt, scan', made⟩ := complete_orFail converts'
  cases made
  have present : dots ≠ [] := by
    intro empty
    rw [empty, List.nil_append] at stops
    exact digits'.1 (stopsAt_nil digits'.2 stops)
  refine ⟨lead, major, dots, minor, rest, rfl, blank, digits, ⟨present, all⟩, digits', ?_, scan,
    scan'⟩
  simp only [List.length_append]
  omega

theorem requestLine_complete {past : Option UInt8} {input : List UInt8} {offset : Nat}
    {line : RequestLine} (accepted : RequestLine.parse past input = .Complete offset line) :
    ∃ first second third, Method.parse past input = .Complete first line.method ∧
      RequestUri.parse past (input.drop first) = .Complete second line.uri ∧
      RtspVersion.parse past ((input.drop first).drop second) = .Complete third line.version ∧
      matchStr crlf past (((input.drop first).drop second).drop third) =
        .Complete crlf.length crlf ∧
      offset = first + (second + (third + (crlf.length + 0))) := by
  obtain ⟨first, method, _, word, afterMethod, rfl⟩ :=
    (bind_eq_complete _ _ past input offset line).mp accepted
  obtain ⟨second, uri, _, target, afterUri, rfl⟩ :=
    (bind_eq_complete _ _ past _ _ line).mp afterMethod
  obtain ⟨third, version, _, versioned, afterVersion, rfl⟩ :=
    (bind_eq_complete _ _ past _ _ line).mp afterUri
  obtain ⟨_, _, _, ended, made, rfl⟩ := (bind_eq_complete _ _ past _ _ line).mp afterVersion
  cases made
  obtain ⟨rfl, rfl, _⟩ := matchStr_complete crlf past _ _ _ ended
  exact ⟨first, second, third, word, target, versioned, ended, rfl⟩

theorem requestLine_numbers {past : Option UInt8} {input : List UInt8} {offset : Nat}
    {line : RequestLine} (accepted : RequestLine.parse past input = .Complete offset line) :
    ∃ start major dots minor rest,
      input = start ++ (major ++ (dots ++ (minor ++ crlf))) ++ rest ∧
        RequestLineBytes (start ++ (major ++ (dots ++ (minor ++ crlf)))) ∧ rtspSlash <:+ start ∧
        Digits major ∧ Dots dots ∧ Digits minor ∧
        scanU8 major = some line.version.major ∧ scanU8 minor = some line.version.minor := by
  obtain ⟨first, second, third, word, target, versioned, ended, rfl⟩ :=
    requestLine_complete accepted
  obtain ⟨lead, major, dots, minor, rest, split_, _, digits, dotted, digits', rfl, scan, scan'⟩ :=
    version_numbers versioned
  have behind : lead ++ (rtspSlash ++ (major ++ (dots ++ (minor ++ rest)))) =
      lead ++ (rtspSlash ++ (major ++ (dots ++ minor))) ++ rest := by
    simp only [List.append_assoc]
  rw [split_, behind, List.drop_left] at ended
  obtain ⟨_, _, tail, rfl⟩ := matchStr_complete crlf past _ _ _ ended
  have decidesMethod : Decides (fun _ => True) Never 1 Method.parse :=
    decides_method fun _ _ _ => trivial
  have decidesUri : Decides (fun _ => True) Never 1 RequestUri.parse :=
    decides_requestUri fun _ _ _ => trivial
  have firstInside := decidesMethod.within past input first line.method word
  have secondInside := decidesUri.within past _ second line.uri target
  have whole : input = (input.take first ++ ((input.drop first).take second ++ (lead ++ rtspSlash)))
      ++ (major ++ (dots ++ (minor ++ crlf))) ++ tail := by
    calc input
        = input.take first ++ ((input.drop first).take second ++
            (input.drop first).drop second) := by simp only [List.take_append_drop]
      _ = _ := by rw [split_]; simp only [List.append_assoc]
  refine ⟨_, major, dots, minor, tail, whole, ?_, ?_, digits, dotted, digits', scan, scan'⟩
  · have bytes := requestLine_starts.taken accepted
    have size : first + (second + ((lead ++ (rtspSlash ++ (major ++ (dots ++ minor)))).length +
        (crlf.length + 0))) = (input.take first ++ ((input.drop first).take second ++
          (lead ++ rtspSlash)) ++ (major ++ (dots ++ (minor ++ crlf)))).length := by
      simp only [List.length_append, List.length_take]
      omega
    have front := (congrArg (List.take _) whole).trans List.take_left
    rwa [size, front] at bytes
  · rw [← List.append_assoc, ← List.append_assoc]
    exact List.suffix_append _ rtspSlash

theorem responseLine_numbers {past : Option UInt8} {input : List UInt8} {offset : Nat}
    {line : ResponseLine} (accepted : ResponseLine.parse past input = .Complete offset line) :
    ∃ lead major dots minor gap code rest,
      input = lead ++ (rtspSlash ++ (major ++ (dots ++ (minor ++ (gap ++ (code ++ rest)))))) ∧
        Blank lead ∧ Digits major ∧ Dots dots ∧ Digits minor ∧ Blank gap ∧ Digits code ∧
        StopsAt isDigit rest ∧ scanU8 major = some line.version.major ∧
        scanU8 minor = some line.version.minor ∧ scanU16 code = some line.code := by
  obtain ⟨_, version, _, versioned, afterVersion, rfl⟩ :=
    (bind_eq_complete _ _ past input offset line).mp accepted
  obtain ⟨_, code, _, coded, afterCode, rfl⟩ := (bind_eq_complete _ _ past _ _ line).mp afterVersion
  obtain ⟨_, reason, _, _, made, rfl⟩ := (bind_eq_complete _ _ past _ _ line).mp afterCode
  cases made
  obtain ⟨lead, major, dots, minor, behind, rfl, blank, digits, dotted, digits', rfl, scan,
    scan'⟩ := version_numbers versioned
  have layout : lead ++ (rtspSlash ++ (major ++ (dots ++ (minor ++ behind)))) =
      lead ++ (rtspSlash ++ (major ++ (dots ++ minor))) ++ behind := by
    simp only [List.append_assoc]
  rw [layout, List.drop_left, StatusCode.parse, matchWhitespaces, matchNumeric] at coded
  obtain ⟨gap, _, _, rfl, blank', _, atCode, rfl⟩ := complete_until coded
  obtain ⟨digitsCode, rest, _, rfl, word, stops, converts, rfl⟩ := complete_some atCode
  cases scanCode : scanU16 digitsCode with
  | none =>
      rw [scanCode] at converts
      cases converts
  | some number =>
      rw [scanCode] at converts
      cases converts
      exact ⟨lead, major, dots, minor, gap, digitsCode, rest, rfl, blank, digits, dotted, digits',
        blank', word, stops, scan, scan', scanCode⟩

theorem message_parts {Line : Type} {parseLine : Parser Line} {past : Option UInt8}
    {input : List UInt8} {offset : Nat} {message : Message Line}
    (accepted : parseMessage parseLine past input = .Complete offset message) :
    ∃ frames rest taken value, input = frames ++ rest ∧ Frames frames ∧
      parseLine past rest = .Complete taken message.startLine ∧
      message.headerMap.find headerCSeq = some value ∧ scanU32 value = some message.cseq := by
  obtain ⟨frames, rest, taken, startLine, _, map, _, rfl, framed, read, _, finished⟩ :=
    message_complete accepted
  obtain ⟨_, _, _, _, _, _, _, _, number, _, rfl⟩ :=
    (finishMessage_complete startLine map past _ _ message).mp finished
  rw [cseqNumber] at number
  cases found : map.find headerCSeq with
  | none =>
      rw [found] at number
      cases number
  | some value =>
      rw [found] at number
      cases scan : scanU32 value with
      | none =>
          simp only [scan] at number
          cases number
      | some cseq =>
          simp only [scan] at number
          cases number
          exact ⟨frames, rest, taken, value, rfl, framed, read, rfl, scan⟩

/-- Where the numbers of a request stand. -/
structure RequestNumbers (input : List UInt8) (message : Request) (major minor cseq : List UInt8) :
    Prop where
  line : ∃ frames start dots rest, Frames frames ∧ rtspSlash <:+ start ∧ Dots dots ∧
    RequestLineBytes (start ++ (major ++ (dots ++ (minor ++ crlf)))) ∧
    input = frames ++ (start ++ (major ++ (dots ++ (minor ++ crlf))) ++ rest)
  major : Digits major
  minor : Digits minor
  cseq : message.headerMap.find headerCSeq = some cseq

/-- Where the numbers of a response stand. -/
structure ResponseNumbers (input : List UInt8) (message : Response)
    (major minor code cseq : List UInt8) : Prop where
  line : ∃ frames lead dots gap rest, Frames frames ∧ Blank lead ∧ Dots dots ∧ Blank gap ∧
    StopsAt isDigit rest ∧ input = frames ++
      (lead ++ (rtspSlash ++ (major ++ (dots ++ (minor ++ (gap ++ (code ++ rest)))))))
  major : Digits major
  minor : Digits minor
  code : Digits code
  cseq : message.headerMap.find headerCSeq = some cseq

/-- The fields of a request hold the numbers written. -/
def RequestExact (message : Request) (major minor cseq : List UInt8) : Prop :=
  message.startLine.version.major.toNat = digitsValue major ∧
    message.startLine.version.minor.toNat = digitsValue minor ∧
    message.cseq.toNat = digitsValue cseq

def ResponseExact (message : Response) (major minor code cseq : List UInt8) : Prop :=
  message.startLine.version.major.toNat = digitsValue major ∧
    message.startLine.version.minor.toNat = digitsValue minor ∧
    message.startLine.code.toNat = digitsValue code ∧ message.cseq.toNat = digitsValue cseq

theorem request_exact_iff {past : Option UInt8} {input : List UInt8} {offset : Nat}
    {message : Request} (accepted : Request.parse past input = .Complete offset message) :
    ∃ major minor cseq, RequestNumbers input message major minor cseq ∧ (Digits cseq →
      (RequestExact message major minor cseq ↔
        FitsBits 8 major ∧ FitsBits 8 minor ∧ FitsBits 32 cseq)) := by
  obtain ⟨frames, _, _, cseq, rfl, framed, read, found, scanCSeq⟩ := message_parts accepted
  obtain ⟨start, major, dots, minor, rest, rfl, bytes, slash, digits, dotted, digits', scan,
    scan'⟩ := requestLine_numbers read
  refine ⟨major, minor, cseq, ⟨⟨frames, start, dots, rest, framed, slash, dotted, bytes, rfl⟩,
    digits, digits', found⟩, ?_⟩
  intro number
  rw [RequestExact, digits.scanU8_exact scan, digits'.scanU8_exact scan',
    number.scanU32_exact scanCSeq]

theorem response_exact_iff {past : Option UInt8} {input : List UInt8} {offset : Nat}
    {message : Response} (accepted : Response.parse past input = .Complete offset message) :
    ∃ major minor code cseq, ResponseNumbers input message major minor code cseq ∧ (Digits cseq →
      (ResponseExact message major minor code cseq ↔
        FitsBits 8 major ∧ FitsBits 8 minor ∧ FitsBits 16 code ∧ FitsBits 32 cseq)) := by
  obtain ⟨frames, _, _, cseq, rfl, framed, read, found, scanCSeq⟩ := message_parts accepted
  obtain ⟨lead, major, dots, minor, gap, code, rest, rfl, blank, digits, dotted, digits', blank',
    word, stops, scan, scan', scanCode⟩ := responseLine_numbers read
  refine ⟨major, minor, code, cseq, ⟨⟨frames, lead, dots, gap, rest, framed, blank, dotted, blank',
    stops, rfl⟩, digits, digits', word, found⟩, ?_⟩
  intro number
  rw [ResponseExact, digits.scanU8_exact scan, digits'.scanU8_exact scan',
    word.scanU16_exact scanCode, number.scanU32_exact scanCSeq]

/-! ## Transport -/

/-- The parameters with numbers have decimal ones. -/
def DecimalTransport (value : List UInt8) : Prop :=
  ∀ param ∈ transportParams (cStr value), ∀ field, rangeField param = some field →
    ∃ lhs rhs, DecimalRange param lhs rhs

/-- Every number of a parameter fits its field. -/
def TransportFits (value : List UInt8) : Prop :=
  ∀ param ∈ transportParams (cStr value), ∀ field, rangeField param = some field →
    ∀ lhs rhs, DecimalRange param lhs rhs → FitsBits field.width lhs ∧ FitsBits field.width rhs

/-- What is stored is what the last parameters of their kinds say, and a number that does
not fit is refused. -/
def TransportExact (value : List UInt8) : Prop := ∀ config,
  ((compyParseTransport config value).2 = 0 → ∀ field param lhs rhs,
    lastParam field (transportParams (cStr value)) = some param → DecimalRange param lhs rhs →
      (compyParseTransport config value).1.numbers field =
        some (digitsValue lhs, digitsValue rhs)) ∧
  (¬ TransportFits value → (compyParseTransport config value).2 = -1)

theorem range_decimal (field : RangeField) {param lhs rhs : List UInt8}
    (range : DecimalRange param lhs rhs) : ∃ numbers, field.parse param = some numbers ∧
      (FitsBits field.width lhs → FitsBits field.width rhs →
        numbers = (digitsValue lhs, digitsValue rhs)) := by
  cases field with
  | interleaved =>
      refine ⟨_, by rw [RangeField.parse, parseChannelPair, parseRange_decimal _ range]; rfl, ?_⟩
      intro left right
      exact Prod.ext ((toUInt8_eq_iff _).mpr left) ((toUInt8_eq_iff _).mpr right)
  | clientPort | serverPort =>
      refine ⟨_, by rw [RangeField.parse, parsePortPair, parseRange_decimal _ range]; rfl, ?_⟩
      intro left right
      exact Prod.ext ((toUInt16_eq_iff _).mpr left) ((toUInt16_eq_iff _).mpr right)

theorem decimalTransport_accepted {value : List UInt8} (decimal : DecimalTransport value)
    (begins : startsWith (cStr value) rtpAvp = true) (config : TransportConfig) :
    (compyParseTransport config value).2 = 0 := by
  rcases compyParseTransport_cases config value with ⟨other, _⟩ | ⟨_, lower, parsed⟩
  · rw [begins] at other
    contradiction
  · have accepted : ((transportParams (cStr value)).foldlM parseTransportParam
        (TransportConfig.start lower)).isSome = true := by
      apply params_isSome
      intro param member field known
      obtain ⟨lhs, rhs, range⟩ := decimal param member field known
      obtain ⟨numbers, found, _⟩ := range_decimal field range
      rw [found]
      rfl
    obtain ⟨result, folded⟩ := Option.isSome_iff_exists.mp accepted
    rw [parsed, folded]

theorem transport_exact_iff {value : List UInt8} (decimal : DecimalTransport value) :
    TransportExact value ↔ (startsWith (cStr value) rtpAvp = true → TransportFits value) := by
  constructor
  · intro exact_ begins
    by_contra large
    have refused := (exact_ (TransportConfig.start .UDP)).2 large
    rw [decimalTransport_accepted decimal begins] at refused
    contradiction
  · intro fits config
    rcases compyParseTransport_cases config value with ⟨other, parsed⟩ | ⟨begins, lower, parsed⟩
    · rw [parsed]
      simp
    · refine ⟨?_, fun large => absurd (fits begins) large⟩
      intro accepted field param lhs rhs last range
      obtain ⟨member, known⟩ := lastParam_mem last
      obtain ⟨numbers, found, exact_⟩ := range_decimal field range
      obtain ⟨left, right⟩ := fits begins param member field known lhs rhs range
      rw [parsed] at accepted ⊢
      split at accepted
      · rename_i result folded
        rw [params_numbers folded field, last, Option.map_some, Option.getD_some, found,
          exact_ left right]
      · contradiction

/-- The bytes as a request, as a response and as the value of a Transport header. -/
theorem numbers_exact_iff (past : Option UInt8) (input : List UInt8) :
    (∀ offset (message : Request), Request.parse past input = .Complete offset message →
      ∃ major minor cseq, RequestNumbers input message major minor cseq ∧ (Digits cseq →
        (RequestExact message major minor cseq ↔
          FitsBits 8 major ∧ FitsBits 8 minor ∧ FitsBits 32 cseq))) ∧
    (∀ offset (message : Response), Response.parse past input = .Complete offset message →
      ∃ major minor code cseq, ResponseNumbers input message major minor code cseq ∧
        (Digits cseq → (ResponseExact message major minor code cseq ↔
          FitsBits 8 major ∧ FitsBits 8 minor ∧ FitsBits 16 code ∧ FitsBits 32 cseq))) ∧
    (DecimalTransport input →
      (TransportExact input ↔ (startsWith (cStr input) rtpAvp = true → TransportFits input))) :=
  ⟨fun _ _ accepted => request_exact_iff accepted,
    fun _ _ accepted => response_exact_iff accepted, transport_exact_iff⟩

def portsValue : List UInt8 := charSlice "RTP/AVP;client_port=3056-3057"

theorem portsValue_params (param : List UInt8)
    (member : param ∈ transportParams (cStr portsValue)) :
    param = charSlice "client_port=3056-3057" := by
  have params : transportParams (cStr portsValue) = [charSlice "client_port=3056-3057"] := by
    decide +kernel
  rw [params] at member
  exact List.mem_singleton.mp member

/-- A request and a pair of ports with numbers that fit. -/
theorem small_numbers_exact :
    (∃ major minor cseq, RequestNumbers optionsBytes optionsRequest major minor cseq ∧
      (Digits cseq → (RequestExact optionsRequest major minor cseq ↔
        FitsBits 8 major ∧ FitsBits 8 minor ∧ FitsBits 32 cseq))) ∧
    TransportExact portsValue := by
  have request := (numbers_exact_iff none optionsBytes).1
  refine ⟨request 31 optionsRequest optionsBytes_accepted, ?_⟩
  refine ((numbers_exact_iff none portsValue).2.2 ?_).mpr ?_
  · intro param member field _
    have left : Digits (charSlice "3056") := ⟨List.cons_ne_nil _ _, List.all_eq_true.mp rfl⟩
    have right : Digits (charSlice "3057") := ⟨List.cons_ne_nil _ _, List.all_eq_true.mp rfl⟩
    refine ⟨_, _, charSlice "client_port", [], ?_, by decide, by decide +kernel, left,
      right, by simp⟩
    rw [portsValue_params param member]
    rfl
  · intro _ param member field known lhs rhs range
    rw [portsValue_params param member] at known range
    cases known
    obtain ⟨left, right⟩ := range.digits
    rw [← left, ← right]
    constructor <;> simp only [FitsBits] <;> decide

def wrappedPorts : List UInt8 := charSlice "RTP/AVP;client_port=65537-65538"

/-- Ports, a version and a sequence number that are cut down. -/
theorem large_numbers_wrap :
    ((compyParseTransport (TransportConfig.start .UDP) wrappedPorts).1.clientPort = some ⟨1, 2⟩ ∧
      ¬ TransportExact wrappedPorts) ∧
    Request.parse none (charSlice "OPTIONS * RTSP/257.0\r\nCSeq: 4294967297\r\n\r\n") =
      .Complete 42 { optionsRequest with
        headerMap := ⟨[⟨headerCSeq, charSlice "4294967297"⟩], by decide⟩ } := by
  have stored : compyParseTransport (TransportConfig.start .UDP) wrappedPorts =
      ({ TransportConfig.start .UDP with clientPort := some ⟨1, 2⟩ }, 0) := by decide +kernel
  refine ⟨⟨by rw [stored], ?_⟩, ?_⟩
  · intro exact_
    have left : Digits (charSlice "65537") := ⟨List.cons_ne_nil _ _, List.all_eq_true.mp rfl⟩
    have right : Digits (charSlice "65538") := ⟨List.cons_ne_nil _ _, List.all_eq_true.mp rfl⟩
    have range : DecimalRange (charSlice "client_port=65537-65538") (charSlice "65537")
        (charSlice "65538") :=
      ⟨charSlice "client_port", [], rfl, by decide, by decide +kernel, left, right, by simp⟩
    have kept := (exact_ (TransportConfig.start .UDP)).1 (by rw [stored]) .clientPort _ _ _
      (by decide +kernel) range
    rw [stored] at kept
    exact absurd kept (by decide)
  · rw [Request.parse, message_unframed _ none _ (by decide) (by decide)]
    rfl

end Compy.Rtsp
