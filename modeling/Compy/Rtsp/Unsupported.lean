import Compy.Library.CheckedBytes
import Compy.Rtsp.Context
import Compy.Rtsp.HeaderCase

/-!
# Options that are not supported

`compy_respond_option_not_supported` with a value out of a request.  The value goes through
`printf` into the headers of the context, which asserts that there is something to print and
memory for it, and from there into a response.
-/

set_option autoImplicit false

namespace Compy.Rtsp

open CheckedBytes IncrementalParsing

def headerRequire : List UInt8 := charSlice "Require"

def headerUnsupported : List UInt8 := charSlice "Unsupported"

/-- `%.*s` with the length of the slice for an `int`; `behind` is the memory behind the slice,
which is read up to a NUL where the precision is negative. -/
def formatSlice (tag behind : List UInt8) : List UInt8 :=
  let precision := (Int32.ofNat tag.length).toInt
  if precision < 0 then cStr (tag ++ behind) else cStr ((tag ++ behind).take precision.toNat)

/-- The header with the formatted text.  `vsnprintf` has no result for a text whose length is
no `int`. -/
def Context.vheader (ctx : Context) (key text : List UInt8) : Access Context :=
  let spaceRequired : Int := if text.length < 2 ^ 31 then text.length else -1
  if 0 < spaceRequired then
    -- The sum is an `int`; as a `size_t` a negative one is more than `malloc` ever has.
    let size := (Int32.ofInt spaceRequired + 1).toInt
    if size < 0 then .error .assertion
    else if room : ctx.headerMap.headers.length < headerMapCapacity then
      .ok (ctx.header key text room)
    else .error .assertion
  else .error .assertion

def optionNotSupported : List UInt8 := charSlice "Option not supported"

/-- What the context keeps as its `ret`, and the writer behind the response. -/
def respondOptionNotSupported {W : Type} (w : Writer W) (ctx : Context) (tag behind : List UInt8)
    (self : W) : Access (Int × W) := do
  let ctx ← ctx.vheader headerUnsupported (formatSlice tag behind)
  return Response.serialize w (ctx.respond 551 optionNotSupported) self

/-- No assertion fails, and from what is written one reads a whole 551 response with the CSeq
of the context and the value. -/
def Answered {W : Type} (w : Writer W) (written : W → List UInt8) (cseq : UInt32)
    (value behind : List UInt8) (self : W) : Prop :=
  ∃ ret after bytes, respondOptionNotSupported w (Context.new cseq) value behind self =
      .ok (ret, after) ∧ written after = written self ++ bytes ∧
    ∀ past, ∃ response, Response.parse past bytes = .Complete bytes.length response ∧
      response.startLine.code = 551 ∧ response.cseq = cseq ∧
      response.headerMap.find headerUnsupported = some value

/-! ## What is formatted -/

/-- The size for `malloc` is negative for the longest text that `vsnprintf` can count. -/
theorem malloc_size (length : Nat) (counted : length < 2 ^ 31) :
    (Int32.ofInt length + 1).toInt < 0 ↔ length = 2 ^ 31 - 1 := by
  rw [Int32.toInt_add, Int32.toInt_ofInt_of_le (by omega) (by omega), Int32.toInt_one]
  by_cases longest : length = 2 ^ 31 - 1
  · rw [longest]
    decide
  · rw [Int.bmod_eq_of_le (by omega) (by omega)]
    omega

theorem vheader_ok (ctx : Context) (key text : List UInt8) (present : 0 < text.length)
    (short : text.length < 2 ^ 31 - 1) (room : ctx.headerMap.headers.length < headerMapCapacity) :
    ctx.vheader key text = .ok (ctx.header key text room) := by
  have counted : text.length < 2 ^ 31 := by omega
  have size := malloc_size text.length counted
  unfold Context.vheader
  simp only [if_pos counted]
  rw [if_pos (by omega), if_neg (by omega), dif_pos room]

theorem vheader_fails (ctx : Context) (key text : List UInt8)
    (wrong : ¬ (0 < text.length ∧ text.length < 2 ^ 31 - 1)) :
    ctx.vheader key text = .error .assertion := by
  unfold Context.vheader
  by_cases counted : text.length < 2 ^ 31
  · have size := malloc_size text.length counted
    simp only [if_pos counted]
    by_cases present : 0 < (text.length : Int)
    · rw [if_pos present, if_pos (by omega)]
    · rw [if_neg present]
  · simp only [if_neg counted]
    rfl

theorem cStr_append {text : List UInt8} (noNul : 0 ∉ text) (behind : List UInt8) :
    cStr (text ++ behind) = text ++ cStr behind := by
  apply List.takeWhile_append_of_pos
  intro c member
  rw [bne_iff_ne]
  intro zero
  exact noNul (zero ▸ member)

theorem formatSlice_short (tag behind : List UInt8) (noNul : 0 ∉ tag)
    (short : tag.length < 2 ^ 31) : formatSlice tag behind = tag := by
  have precision : (Int32.ofNat tag.length).toInt = tag.length := Int32.toInt_ofNat_of_lt short
  have whole := cStr_append noNul []
  rw [List.append_nil] at whole
  rw [formatSlice, precision, if_neg (by omega), Int.toNat_natCast, List.take_left, whole]
  exact List.append_nil tag

theorem formatSlice_long (tag behind : List UInt8) (noNul : 0 ∉ tag)
    (long : 2 ^ 31 ≤ tag.length) : 2 ^ 31 ≤ (formatSlice tag behind).length ∨
      ∃ count < tag.length, formatSlice tag behind = tag.take count := by
  have bound := Int32.toInt_lt (Int32.ofNat tag.length)
  unfold formatSlice
  dsimp only
  generalize (Int32.ofNat tag.length).toInt = precision at *
  split
  · left
    rw [cStr_append noNul, List.length_append]
    omega
  · right
    have fewer : precision.toNat < tag.length := by omega
    refine ⟨precision.toNat, fewer, ?_⟩
    rw [List.take_append_of_le_length (by omega)]
    have inside : 0 ∉ tag.take precision.toNat := fun member =>
      noNul (List.mem_of_mem_take member)
    have whole := cStr_append inside []
    rw [List.append_nil] at whole
    rw [whole]
    exact List.append_nil _

/-! ## What a request brings -/

theorem plain_dropBlanks {text : List UInt8} (clean : ¬ crlf <:+: text) :
    PlainText (text.dropWhile whitespaceMatcher) where
  start first := by
    have stop := List.head?_dropWhile_not whitespaceMatcher text
    rw [first] at stop
    contradiction
  line := clean_dropWhile whitespaceMatcher clean

theorem NameLine.value_plain (self : NameLine) : PlainText self.value :=
  plain_dropBlanks (clean_dropWhile _ (clean_dropWhile _ self.clean))

theorem PlainText.take {text : List UInt8} (plain : PlainText text) (count : Nat) :
    PlainText (text.take count) where
  start first := by
    cases count with
    | zero => contradiction
    | succ count =>
        rw [List.head?_take, if_neg (Nat.succ_ne_zero count)] at first
        exact plain.start first
  line inside := plain.line (inside.trans (List.take_prefix count text).isInfix)

theorem accepted_values_plain {Line : Type} (parseLine : Parser Line) (past : Option UInt8)
    (input : List UInt8) (offset : Nat) (message : Message Line)
    (accepted : parseMessage parseLine past input = .Complete offset message) :
    ∀ header ∈ message.headerMap.headers, PlainText header.value := by
  obtain ⟨_, _, _, startLine, mapped, map, _, _, _, _, parsed, finished⟩ :=
    message_complete accepted
  obtain ⟨_, _, _, _, _, _, _, _, _, _, rfl⟩ :=
    (finishMessage_complete startLine map past _ _ message).mp finished
  obtain ⟨lines, _, _, _, headers⟩ := headerMapLoop_accepts _ _ _ past _ mapped map parsed
  intro header member
  rw [show map.headers = _ from headers] at member
  obtain ⟨line, _, rfl⟩ := List.mem_map.mp member
  exact line.value_plain

/-! ## What is answered -/

theorem new_room (cseq : UInt32) :
    (Context.new cseq).headerMap.headers.length < headerMapCapacity :=
  Nat.zero_lt_succ _

def unsupportedResponse (cseq : UInt32) (text : List UInt8) : Response :=
  ((Context.new cseq).header headerUnsupported text (new_room cseq)).respond 551
    optionNotSupported

theorem respond_ok {W : Type} (w : Writer W) (cseq : UInt32) (tag behind : List UInt8) (self : W)
    (present : 0 < (formatSlice tag behind).length)
    (short : (formatSlice tag behind).length < 2 ^ 31 - 1) :
    respondOptionNotSupported w (Context.new cseq) tag behind self =
      .ok (Response.serialize w (unsupportedResponse cseq (formatSlice tag behind)) self) := by
  rw [respondOptionNotSupported, vheader_ok _ _ _ present short (new_room cseq)]
  rfl

theorem respond_fails {W : Type} (w : Writer W) (cseq : UInt32) (tag behind : List UInt8) (self : W)
    (wrong : ¬ (0 < (formatSlice tag behind).length ∧
      (formatSlice tag behind).length < 2 ^ 31 - 1)) :
    respondOptionNotSupported w (Context.new cseq) tag behind self = .error .assertion := by
  rw [respondOptionNotSupported, vheader_fails _ _ _ wrong]
  rfl

theorem optionNotSupported_plain : PlainText optionNotSupported := ⟨by decide, by decide⟩

theorem unsupportedResponse_writable (cseq : UInt32) {text : List UInt8} (plain : PlainText text) :
    (unsupportedResponse cseq text).Writable ResponseLine.Writable where
  startLine := optionNotSupported_plain
  headers header member := by
    rw [List.mem_singleton.mp member]
    exact ⟨List.cons_ne_nil _ _, List.all_eq_true.mp rfl, plain⟩
  room := Nat.le_of_ble_eq_true rfl
  body := fun last => by cases last
  size := Nat.two_pow_pos 64
  cseq := fun _ found => by cases found
  contentLength := fun _ found => by cases found

/-- What is written is read as the response, with the option in it. -/
theorem unsupportedResponse_read {W : Type} {w : Writer W} {written : W → List UInt8}
    (never : w.NeverFails written) (cseq : UInt32) {text : List UInt8} (plain : PlainText text)
    (self : W) : ∃ bytes,
      written (Response.serialize w (unsupportedResponse cseq text) self).2 =
        written self ++ bytes ∧
      ∀ past, ∃ response, Response.parse past bytes = .Complete bytes.length response ∧
        response.startLine.code = 551 ∧ response.cseq = cseq ∧
        response.headerMap.find headerUnsupported = some text := by
  have writable := unsupportedResponse_writable cseq plain
  have line := responseLine_reads _ writable.startLine
  obtain ⟨_, added⟩ :=
    writes_message never (writes_responseLine never) (unsupportedResponse cseq text) self
  refine ⟨_, added, fun past => ?_⟩
  obtain ⟨sent, sends, parsed⟩ := Message.parse_bytes _ writable line past
  refine ⟨_, parsed, rfl, rfl, ?_⟩
  rw [sends.find]
  rfl

theorem Answered.formats {W : Type} {w : Writer W} {written : W → List UInt8} {cseq : UInt32}
    {value behind : List UInt8} {self : W} (answered : Answered w written cseq value behind self) :
    0 < (formatSlice value behind).length ∧
      (formatSlice value behind).length < 2 ^ 31 - 1 := by
  by_contra wrong
  obtain ⟨ret, after, bytes, done, _⟩ := answered
  rw [respond_fails w cseq value behind self wrong] at done
  contradiction

theorem Answered.formatSlice_eq {W : Type} {w : Writer W} {written : W → List UInt8}
    (never : w.NeverFails written) {cseq : UInt32} {value behind : List UInt8} {self : W}
    (plain : PlainText (formatSlice value behind))
    (answered : Answered w written cseq value behind self) : formatSlice value behind = value := by
  obtain ⟨present, short⟩ := answered.formats
  obtain ⟨ret, after, bytes, done, added, read⟩ := answered
  rw [respond_ok w cseq value behind self present short] at done
  obtain ⟨bytes', added', read'⟩ := unsupportedResponse_read never cseq plain self
  rw [Except.ok.inj done, added] at added'
  have same : bytes = bytes' := List.append_cancel_left added'
  obtain ⟨response, parsed, _, _, found⟩ := read none
  obtain ⟨response', parsed', _, _, found'⟩ := read' none
  rw [same, parsed'] at parsed
  cases parsed
  rw [found'] at found
  exact Option.some.inj found

theorem answered_writer_iff {W : Type} {w : Writer W} {written : W → List UInt8}
    (never : w.NeverFails written) {value : List UInt8} (plain : PlainText value)
    (noNul : 0 ∉ value) (cseq : UInt32) (behind : List UInt8) (self : W) :
    Answered w written cseq value behind self ↔
      0 < value.length ∧ value.length < 2 ^ 31 - 1 := by
  by_cases short : value.length < 2 ^ 31
  · have whole := formatSlice_short value behind noNul short
    constructor
    · intro answered
      have formats := answered.formats
      rwa [whole] at formats
    · intro ⟨present, fits⟩
      obtain ⟨bytes, added, read⟩ := unsupportedResponse_read never cseq plain self
      refine ⟨(Response.serialize w (unsupportedResponse cseq value) self).1, _, bytes, ?_, added,
        read⟩
      rw [respond_ok w cseq value behind self (by rwa [whole]) (by rwa [whole]), whole]
  · refine iff_of_false ?_ fun fits => short (Nat.lt_of_lt_pred fits.2)
    intro answered
    have formatted := formatSlice_long value behind noNul (Nat.le_of_not_lt short)
    rcases formatted with long | ⟨count, cut, same⟩
    · exact absurd (Nat.lt_of_lt_pred answered.formats.2) (Nat.not_lt.mpr long)
    · have equal := answered.formatSlice_eq never (by rw [same]; exact plain.take count)
      have sizes := congrArg List.length (same.symm.trans equal)
      rw [List.length_take_of_le (Nat.le_of_lt cut)] at sizes
      omega

/-- An option out of an accepted request is answered where it is a text for `printf`; whether the
assertions hold has nothing to do with the writer. -/
theorem answered_iff (past : Option UInt8) (input : List UInt8) (offset : Nat)
    (request : Request) (accepted : Request.parse past input = .Complete offset request)
    (value : List UInt8) (requires : Header.mk headerRequire value ∈ request.headerMap.headers)
    (noNul : 0 ∉ value) (cseq : UInt32) (behind : List UInt8) :
    (∀ (W : Type) (w : Writer W) (self : W), 0 < value.length → value.length < 2 ^ 31 - 1 →
      ∃ result, respondOptionNotSupported w (Context.new cseq) value behind self = .ok result) ∧
    ∀ (W : Type) (w : Writer W) (written : W → List UInt8), w.NeverFails written → ∀ self,
      (Answered w written cseq value behind self ↔
        0 < value.length ∧ value.length < 2 ^ 31 - 1) := by
  constructor
  · intro W w self present short
    have whole := formatSlice_short value behind noNul (Nat.lt_of_lt_pred short)
    exact ⟨_, respond_ok w cseq value behind self (by rwa [whole]) (by rwa [whole])⟩
  · intro W w written never self
    have plain : PlainText value :=
      accepted_values_plain RequestLine.parse past input offset request accepted _ requires
    exact answered_writer_iff never plain noNul cseq behind self

def requireRequest (text : String) : List UInt8 :=
  charSlice "OPTIONS * RTSP/1.0\r\nCSeq: 1\r\nRequire:" ++ (charSlice text ++ crlf ++ crlf)

theorem twoHeaders_bounded (value : List UInt8) :
    [Header.mk headerCSeq (charSlice "1"), Header.mk headerRequire value].length ≤
      headerMapCapacity :=
  Nat.le_of_ble_eq_true rfl

def requireMessage (value : List UInt8) : Request where
  startLine := ⟨charSlice "OPTIONS", charSlice "*", ⟨1, 0⟩⟩
  headerMap := ⟨[⟨headerCSeq, charSlice "1"⟩, ⟨headerRequire, value⟩], twoHeaders_bounded value⟩
  body := []
  cseq := 1

theorem requireRequest_accepted :
    Request.parse none (requireRequest " funky") =
      .Complete 47 (requireMessage (charSlice "funky")) := by
  rw [Request.parse, message_unframed _ none _ (by decide) (by decide)]
  rfl

theorem funky_answered :
    (∀ (W : Type) (w : Writer W) (self : W), 0 < (charSlice "funky").length →
      (charSlice "funky").length < 2 ^ 31 - 1 → ∃ result,
        respondOptionNotSupported w (Context.new 1) (charSlice "funky") [] self = .ok result) ∧
    ∀ (W : Type) (w : Writer W) (written : W → List UInt8), w.NeverFails written → ∀ self,
      (Answered w written 1 (charSlice "funky") [] self ↔
        0 < (charSlice "funky").length ∧ (charSlice "funky").length < 2 ^ 31 - 1) :=
  answered_iff none (requireRequest " funky") 47 (requireMessage (charSlice "funky"))
    requireRequest_accepted (charSlice "funky") (List.mem_cons_of_mem _ List.mem_cons_self)
    (by decide) 1 []

/-- The parser accepts a `Require` without a value, and the assertion of `compy_vheader` fails
on it. -/
theorem empty_require_fails :
    Request.parse none (requireRequest "") = .Complete 41 (requireMessage []) ∧
      respondOptionNotSupported listWriter (Context.new 1) [] [] [] = .error .assertion ∧
      ¬ Answered listWriter id 1 [] [] [] := by
  have accepted : Request.parse none (requireRequest "") = .Complete 41 (requireMessage []) := by
    rw [Request.parse, message_unframed _ none _ (by decide) (by decide)]
    rfl
  have failed := respond_fails listWriter 1 [] [] [] (by decide)
  exact ⟨accepted, failed, fun answered => absurd answered.formats (by decide)⟩

end Compy.Rtsp
