import Compy.Library.Interaction
import Compy.Connection.Demultiplex
import Compy.Rtsp.Unsupported

/-!
# Dispatching requests

`compy_dispatch` with the controller as a parameter.  What a method of a controller does with
its context is a program over the functions of `context.h`; in between it may do what it likes
with its own state.
-/

set_option autoImplicit false

namespace Compy.Connection

open CheckedBytes Interaction IncrementalParsing Framing Compy.Rtsp

/-- The functions of `context.h`.  The text of a header is what `printf` makes of the format and
its arguments. -/
inductive ContextCall where
  | header (key text : List UInt8)
  | body (body : List UInt8)
  | respond (code : UInt16) (reason : List UInt8)
  | getRet

abbrev ContextCall.Answer : ContextCall → Type
  | .header _ _ | .body _ => Unit
  | .respond _ _ | .getRet => Int

abbrev contextInterface : Interface := ⟨ContextCall, ContextCall.Answer⟩

abbrev Handling (α : Type) := Program contextInterface α

namespace Handling

def header (key text : List UInt8) : Handling Unit :=
  Program.perform (I := contextInterface) (.header key text)

def body (body : List UInt8) : Handling Unit :=
  Program.perform (I := contextInterface) (.body body)

def respond (code : UInt16) (reason : List UInt8) : Handling Int :=
  Program.perform (I := contextInterface) (.respond code reason)

def getRet : Handling Int := Program.perform (I := contextInterface) .getRet

def respondOk : Handling Int := respond 200 (charSlice "OK")

def respondInternalError : Handling Int := respond 500 (charSlice "Internal error")

def respondOptionNotSupported (tag behind : List UInt8) : Handling Int := do
  header headerUnsupported (formatSlice tag behind)
  respond 551 optionNotSupported

end Handling

variable {W σ α : Type}

/-- The context of a request with its writer and the result of the last response. -/
structure Exchange (W : Type) where
  context : Context
  writer : W
  ret : Int

def Exchange.new (writer : W) (cseq : UInt32) : Exchange W := ⟨.new cseq, writer, 0⟩

/-- The functions of `context.c` over a writer. -/
def contextCalls (w : Writer W) : Implementation contextInterface Fault (Exchange W)
  | .header key text, exchange => do
      let context ← exchange.context.vheader key text
      return ((), { exchange with context := context })
  | .body body, exchange =>
      .ok ((), { exchange with context := { exchange.context with body := body } })
  | .respond code reason, exchange =>
      let (ret, writer) := Response.serialize w (exchange.context.respond code reason) exchange.writer
      .ok (ret, { exchange with writer := writer, ret := ret })
  | .getRet, exchange => .ok (exchange.ret, exchange)

inductive ControlFlow where
  | Break
  | Continue

/-- The methods get the state of the controller and give the one behind them. -/
structure Controller (σ : Type) where
  options : σ → Request → Handling σ
  describe : σ → Request → Handling σ
  setup : σ → Request → Handling σ
  play : σ → Request → Handling σ
  pauseMethod : σ → Request → Handling σ
  teardown : σ → Request → Handling σ
  getParameter : σ → Request → Handling σ
  unknown : σ → Request → Handling σ
  before : σ → Request → Handling (ControlFlow × σ)
  after : Int → σ → Request → Handling σ

namespace Controller

def handler (controller : Controller σ) (method : List UInt8) : σ → Request → Handling σ :=
  if method = charSlice "OPTIONS" then controller.options
  else if method = charSlice "DESCRIBE" then controller.describe
  else if method = charSlice "SETUP" then controller.setup
  else if method = charSlice "PLAY" then controller.play
  else if method = charSlice "PAUSE" then controller.pauseMethod
  else if method = charSlice "TEARDOWN" then controller.teardown
  else if method = charSlice "GET_PARAMETER" then controller.getParameter
  else controller.unknown

def handle (controller : Controller σ) (req : Request) (self : σ) : Handling σ := do
  let (flow, self) ← controller.before self req
  let self ← match flow with
    | .Break => pure self
    | .Continue => controller.handler req.startLine.method self req
  let ret ← Handling.getRet
  controller.after ret self req

end Controller

def dispatch (w : Writer W) (controller : Controller σ) (req : Request) (self : σ) (conn : W) :
    Access (σ × W) := do
  let (self, exchange) ← (controller.handle req self).run (contextCalls w) (.new conn req.cseq)
  return (self, exchange.writer)

/-! ## What a controller may do -/

structure Progress where
  context : Context
  sent : List Response

def Progress.new (cseq : UInt32) : Progress := ⟨.new cseq, []⟩

/-- What has a meaning for the client: a header has a value that `printf` makes and that there is
room for, and a response can be read back. -/
def contextContract : Contract contextInterface Progress where
  pre
    | .header _ text, progress => 0 ∉ text ∧ 0 < text.length ∧ text.length < 2 ^ 31 - 1 ∧
        progress.context.headerMap.headers.length < headerMapCapacity
    | .body _, _ => True
    | .respond code reason, progress =>
        (progress.context.respond code reason).Writable ResponseLine.Writable
    | .getRet, _ => True
  after
    | .header key text, progress, _ =>
        if room : progress.context.headerMap.headers.length < headerMapCapacity then
          { progress with context := progress.context.header key text room }
        else progress
    | .body body, progress, _ => { progress with context := { progress.context with body := body } }
    | .respond code reason, progress, _ =>
        { progress with sent := progress.sent ++ [progress.context.respond code reason] }
    | .getRet, progress, _ => progress

/-- Requests with `Among` are answered, each with one response and with `Inv` kept. -/
structure Controller.Answers (controller : Controller σ) (Among : Request → Prop)
    (Inv : σ → Prop) : Prop where
  once : ∀ req self, Among req → Inv self →
    (controller.handle req self).Ensures contextContract (.new req.cseq) fun self progress =>
      Inv self ∧ progress.sent.length = 1

/-! ## One request -/

/-- The exchange is where the model is, and the responses so far are behind what was written
before. -/
structure Follows (written : W → List UInt8) (start : List UInt8) (cseq : UInt32)
    (progress : Progress) (exchange : Exchange W) : Prop where
  context : exchange.context = progress.context
  own : progress.context.cseq = cseq
  written : written exchange.writer = start ++ streamOf (progress.sent.map .respond)
  readable : ∀ response ∈ progress.sent, response.Writable ResponseLine.Writable
  answers : ∀ response ∈ progress.sent, response.cseq = cseq

theorem streamOf_respond (sent : List Response) (response : Response) :
    streamOf ((sent ++ [response]).map .respond) =
      streamOf (sent.map .respond) ++ (WriterUse.respond response).bytes := by
  rw [List.map_append, streamOf, List.flatMap_append, List.map_singleton, List.flatMap_singleton,
    streamOf]

section

variable {w : Writer W} {written : W → List UInt8} (never : w.NeverFails written)

include never

theorem contextContract_meets (start : List UInt8) (cseq : UInt32) :
    contextContract.Meets (contextCalls w) (Follows written start cseq) := by
  intro command progress exchange follows allowed
  obtain ⟨context, own, added, readable, answers⟩ := follows
  cases command with
  | header key text =>
      obtain ⟨_, present, short, room⟩ := allowed
      have formatted := vheader_ok progress.context key text present short room
      refine ⟨(), { exchange with context := progress.context.header key text room }, ?_, ?_⟩
      · rw [contextCalls, context, formatted]
        rfl
      · rw [contextContract]
        dsimp only
        rw [dif_pos room]
        exact ⟨rfl, own, added, readable, answers⟩
  | body body =>
      refine ⟨(), _, rfl, ?_⟩
      rw [context]
      exact ⟨rfl, own, added, readable, answers⟩
  | respond code reason =>
      have sent := use_written never (.respond (progress.context.respond code reason))
        exchange.writer
      refine ⟨(Response.serialize w (exchange.context.respond code reason) exchange.writer).1,
        ⟨exchange.context,
          (Response.serialize w (exchange.context.respond code reason) exchange.writer).2, _⟩,
        rfl, context, own, ?_, ?_, ?_⟩
      · rw [context]
        refine sent.trans ?_
        rw [added, List.append_assoc]
        exact congrArg (start ++ ·) (streamOf_respond progress.sent _).symm
      · intro response member
        rcases List.mem_append.mp member with before | here
        · exact readable response before
        · rw [List.mem_singleton.mp here]
          exact allowed
      · intro response member
        rcases List.mem_append.mp member with before | here
        · exact answers response before
        · rw [List.mem_singleton.mp here]
          exact own
  | getRet => exact ⟨exchange.ret, exchange, rfl, context, own, added, readable, answers⟩

/-- A request is answered with one response, and without a failing assertion. -/
theorem dispatch_answers {controller : Controller σ} {Among : Request → Prop} {Inv : σ → Prop}
    (answers : controller.Answers Among Inv) {req : Request} (among : Among req) {self : σ}
    (inv : Inv self) (conn : W) : ∃ after conn' response,
      dispatch w controller req self conn = .ok (after, conn') ∧ Inv after ∧
      written conn' = written conn ++ (WriterUse.respond response).bytes ∧
      response.Writable ResponseLine.Writable ∧ response.cseq = req.cseq := by
  have start : Follows written (written conn) req.cseq (.new req.cseq) (.new conn req.cseq) :=
    ⟨rfl, rfl, (List.append_nil _).symm, fun _ none => absurd none List.not_mem_nil,
      fun _ none => absurd none List.not_mem_nil⟩
  obtain ⟨after, exchange, progress, ran, ⟨_, _, added, readable, own⟩, kept, single⟩ :=
    (contextContract_meets never (written conn) req.cseq).run (answers.once req self among inv) start
  obtain ⟨response, only⟩ := List.length_eq_one_iff.mp single
  rw [only] at added readable own
  refine ⟨after, exchange.writer, response, ?_, kept, ?_, readable response List.mem_cons_self,
    own response List.mem_cons_self⟩
  · rw [dispatch, ran]
    rfl
  · rw [added, List.map_singleton, streamOf, List.flatMap_singleton]

end

/-! ## Rules for the methods of a controller -/

structure Formatted (key text : List UInt8) : Prop where
  writable : (Header.mk key text).Writable
  other : key ≠ headerCSeq ∧ key ≠ headerContentLength
  noNul : 0 ∉ text
  present : 0 < text.length
  short : text.length < 2 ^ 31 - 1

/-- At most `count` headers, and nothing that could not be read back. -/
structure Tidy (count : Nat) (context : Context) : Prop where
  few : context.headerMap.headers.length ≤ count
  headers : ∀ header ∈ context.headerMap.headers,
    header.Writable ∧ header.key ≠ headerCSeq ∧ header.key ≠ headerContentLength
  body : NotCr context.body
  size : context.body.length < 2 ^ 64

theorem tidy_new (cseq : UInt32) : Tidy 0 (.new cseq) where
  few := Nat.le_refl 0
  headers _ none := absurd none List.not_mem_nil
  body := nofun
  size := Nat.two_pow_pos 64

namespace Tidy

variable {count : Nat} {context : Context} (tidy : Tidy count context)

include tidy

theorem header {key text : List UInt8} (formatted : Formatted key text)
    (room : context.headerMap.headers.length < headerMapCapacity) :
    Tidy (count + 1) (context.header key text room) where
  few := by
    have few := tidy.few
    rw [Context.header, HeaderMap.append, List.length_append, List.length_singleton]
    omega
  headers header member := by
    rcases List.mem_append.mp member with before | here
    · exact tidy.headers header before
    · rw [List.mem_singleton.mp here]
      exact ⟨formatted.writable, formatted.other⟩
  body := tidy.body
  size := tidy.size

theorem withBody {body : List UInt8} (notCr : NotCr body) (size : body.length < 2 ^ 64) :
    Tidy count { context with body := body } where
  few := tidy.few
  headers := tidy.headers
  body := notCr
  size := size

theorem find_none (key : List UInt8) (reserved : key = headerCSeq ∨ key = headerContentLength) :
    context.headerMap.find key = none := by
  rw [HeaderMap.find, Option.map_eq_none_iff, List.find?_eq_none]
  intro header member same
  obtain ⟨_, notCSeq, notLength⟩ := tidy.headers header member
  rw [beq_iff_eq] at same
  rcases reserved with rfl | rfl
  · exact notCSeq same
  · exact notLength same

theorem respond (few : count + 2 ≤ headerMapCapacity) (code : UInt16) {reason : List UInt8}
    (plain : PlainText reason) : (context.respond code reason).Writable ResponseLine.Writable where
  startLine := plain
  headers header member := (tidy.headers header member).1
  room := by
    have own := tidy.few
    have added : (context.respond code reason).addedHeaders.length ≤ 2 := by
      rw [Message.addedHeaders]
      split <;> split <;> simp
    rw [show (context.respond code reason).headerMap = context.headerMap from rfl]
    omega
  body := tidy.body
  size := tidy.size
  cseq value found := by
    rw [show (context.respond code reason).headerMap = context.headerMap from rfl,
      tidy.find_none _ (Or.inl rfl)] at found
    contradiction
  contentLength value found := by
    rw [show (context.respond code reason).headerMap = context.headerMap from rfl,
      tidy.find_none _ (Or.inr rfl)] at found
    contradiction

variable {sent : List Response}

theorem ensures_header {key text : List UInt8} (formatted : Formatted key text)
    (few : count < headerMapCapacity) {post : Unit → Progress → Prop}
    (next : ∀ context, Tidy (count + 1) context → post () ⟨context, sent⟩) :
    (Handling.header key text).Ensures contextContract ⟨context, sent⟩ post := by
  have room := Nat.lt_of_le_of_lt tidy.few few
  have behind : contextContract.after (.header key text) ⟨context, sent⟩ () =
      ⟨context.header key text room, sent⟩ := dif_pos room
  refine ⟨⟨formatted.noNul, formatted.present, formatted.short, room⟩, fun _ => ?_⟩
  exact (congrArg (post ()) behind).mpr (next _ (tidy.header formatted room))

theorem ensures_respond (few : count + 2 ≤ headerMapCapacity) (code : UInt16)
    {reason : List UInt8} (plain : PlainText reason) {post : Int → Progress → Prop}
    (next : ∀ ret response, post ret ⟨context, sent ++ [response]⟩) :
    (Handling.respond code reason).Ensures contextContract ⟨context, sent⟩ post :=
  ⟨tidy.respond few code plain, fun ret => next ret _⟩

end Tidy

/-! ## A controller for tests -/

def headerTestMethod : List UInt8 := charSlice "Test-Method"

def testMethod (name : String) (self : Nat) (_req : Request) : Handling Nat := do
  Handling.header headerTestMethod (charSlice name)
  let _ ← Handling.respondOk
  return self

def testController : Controller Nat where
  options := testMethod "options"
  describe := testMethod "describe"
  setup := testMethod "setup"
  play := testMethod "play"
  pauseMethod := testMethod "pause_method"
  teardown := testMethod "teardown"
  getParameter := testMethod "get_parameter"
  unknown := testMethod "abracadabra"
  before self _ := return (.Continue, self + 1)
  after _ self _ := return self + 1

theorem ok_plain : PlainText (charSlice "OK") := ⟨by decide, by decide⟩

theorem testMethod_answers {name : String} (named : Formatted headerTestMethod (charSlice name))
    (self : Nat) (req : Request) (cseq : UInt32) :
    (testMethod name self req).Ensures contextContract (.new cseq) fun _ progress =>
      progress.sent.length = 1 := by
  rw [testMethod, Program.ensures_bind]
  refine (tidy_new cseq).ensures_header named (by decide) fun context tidy => ?_
  rw [Program.ensures_bind]
  exact tidy.ensures_respond (by decide) 200 ok_plain fun ret response => rfl

theorem formatted_test {name : String} (plain : PlainText (charSlice name))
    (noNul : 0 ∉ charSlice name) (present : 0 < (charSlice name).length)
    (short : (charSlice name).length < 2 ^ 31 - 1) :
    Formatted headerTestMethod (charSlice name) where
  writable := ⟨List.cons_ne_nil _ _, List.all_eq_true.mp rfl, plain⟩
  other := ⟨by decide, by decide⟩
  noNul := noNul
  present := present
  short := short

theorem testController_answers : testController.Answers (fun _ => True) fun _ => True where
  once req self _ _ := by
    have each (name : String) (plain : PlainText (charSlice name)) (noNul : 0 ∉ charSlice name)
        (present : 0 < (charSlice name).length) (short : (charSlice name).length < 2 ^ 31 - 1) :=
      testMethod_answers (formatted_test plain noNul present short) (self + 1) req req.cseq
    have method : (testController.handler req.startLine.method (self + 1) req).Ensures
        contextContract (.new req.cseq) fun _ progress => progress.sent.length = 1 := by
      rw [Controller.handler]
      split_ifs
      · exact each "options" ⟨by decide, by decide⟩ (by decide) (by decide) (by decide)
      · exact each "describe" ⟨by decide, by decide⟩ (by decide) (by decide) (by decide)
      · exact each "setup" ⟨by decide, by decide⟩ (by decide) (by decide) (by decide)
      · exact each "play" ⟨by decide, by decide⟩ (by decide) (by decide) (by decide)
      · exact each "pause_method" ⟨by decide, by decide⟩ (by decide) (by decide) (by decide)
      · exact each "teardown" ⟨by decide, by decide⟩ (by decide) (by decide) (by decide)
      · exact each "get_parameter" ⟨by decide, by decide⟩ (by decide) (by decide) (by decide)
      · exact each "abracadabra" ⟨by decide, by decide⟩ (by decide) (by decide) (by decide)
    refine (Program.ensures_bind _ _ _ _).mpr ?_
    refine (Program.ensures_bind _ _ _ _).mpr (method.mono fun _ progress single => ?_)
    exact ⟨trivial, fun _ => ⟨trivial, single⟩⟩

/-! ## A connection -/

/-- What happens on a connection: a request is dispatched, or a packet of a stream that is being
played is sent on the same writer. -/
inductive ServerEvent where
  | request (req : Request)
  | packet (call : Tcp.Transmit)

def runEvents (w : Writer W) (controller : Controller σ) :
    List ServerEvent → σ → W → Access (σ × W)
  | [], self, conn => .ok (self, conn)
  | .request req :: events, self, conn => do
      let (self, conn) ← dispatch w controller req self conn
      runEvents w controller events self conn
  | .packet call :: events, self, conn =>
      runEvents w controller events self ((WriterUse.transmit call).run w conn).2

/-- What the client gets for the events: a response to each request with its sequence number, a
frame for each packet that is not refused. -/
inductive Served : List ServerEvent → List Item → Prop where
  | none : Served [] []
  | request {req : Request} {response : Response} {events : List ServerEvent} {items : List Item}
      (answers : response.cseq = req.cseq) (later : Served events items) :
      Served (.request req :: events) (.response response :: items)
  | packet {call : Tcp.Transmit} {events : List ServerEvent} {items : List Item}
      (later : Served events items) :
      Served (.packet call :: events) ((WriterUse.transmit call).item.toList ++ items)

def ServerEvent.isRequest : ServerEvent → Bool
  | .request _ => true
  | .packet _ => false

def ServerEvent.Fits (Among : Request → Prop) : ServerEvent → Prop
  | .request req => Among req
  | .packet call => (WriterUse.transmit call).Readable

theorem delivered_cseq (response : Response) : (delivered response).cseq = response.cseq := by
  rw [delivered]
  split <;> rfl

theorem filterMap_item (use : WriterUse) (uses : List WriterUse) :
    (use :: uses).filterMap WriterUse.item =
      use.item.toList ++ uses.filterMap WriterUse.item := by
  cases item : use.item with
  | none => exact List.filterMap_cons_none item
  | some found => exact List.filterMap_cons_some item

theorem runEvents_served {w : Writer W} {written : W → List UInt8} (never : w.NeverFails written)
    {controller : Controller σ} {Among : Request → Prop} {Inv : σ → Prop}
    (answers : controller.Answers Among Inv) (events : List ServerEvent)
    (fits : ∀ event ∈ events, event.Fits Among) (self : σ) (inv : Inv self) (conn : W) :
    ∃ after conn' uses, runEvents w controller events self conn = .ok (after, conn') ∧ Inv after ∧
      written conn' = written conn ++ streamOf uses ∧ (∀ use ∈ uses, use.Readable) ∧
      Served events (uses.filterMap WriterUse.item) ∧
      uses.map WriterUse.isRespond = events.map ServerEvent.isRequest := by
  induction events generalizing self conn with
  | nil =>
      exact ⟨self, conn, [], rfl, inv, (List.append_nil _).symm,
        fun _ none => absurd none List.not_mem_nil, .none, rfl⟩
  | cons event events ih =>
      obtain ⟨here, later⟩ := List.forall_mem_cons.mp fits
      cases event with
      | request req =>
          obtain ⟨middle, conn', response, ran, kept, added, readable, own⟩ :=
            dispatch_answers never answers here inv conn
          obtain ⟨after, last, uses, rest, holds, all, fine, served, kinds⟩ :=
            ih later middle kept conn'
          refine ⟨after, last, .respond response :: uses, ?_, holds, ?_,
            List.forall_mem_cons.mpr ⟨readable, fine⟩, ?_, congrArg (true :: ·) kinds⟩
          · rw [runEvents, ran]
            exact rest
          · rw [all, added, streamOf_cons, List.append_assoc]
          · rw [filterMap_item]
            exact .request ((delivered_cseq response).trans own) served
      | packet call =>
          obtain ⟨after, last, uses, rest, holds, all, fine, served, kinds⟩ :=
            ih later self inv ((WriterUse.transmit call).run w conn).2
          refine ⟨after, last, .transmit call :: uses, rest, holds, ?_,
            List.forall_mem_cons.mpr ⟨here, fine⟩, ?_, congrArg (false :: ·) kinds⟩
          · rw [all, use_written never, streamOf_cons, List.append_assoc]
          · rw [filterMap_item]
            exact .packet served

/-- However requests and packets follow each other, no assertion fails, and what is written is a
response to every request and a frame for every packet, in their order.  The client reads just
these, unless the last byte is a carriage return and there was a request. -/
theorem requests_answered {w : Writer W} {written : W → List UInt8} (never : w.NeverFails written)
    {controller : Controller σ} {Among : Request → Prop} {Inv : σ → Prop}
    (answers : controller.Answers Among Inv) (events : List ServerEvent)
    (fits : ∀ event ∈ events, event.Fits Among) (self : σ) (inv : Inv self) (conn : W)
    (fresh : written conn = []) : ∃ after conn' uses,
      runEvents w controller events self conn = .ok (after, conn') ∧ Inv after ∧
      written conn' = streamOf uses ∧ Served events (uses.filterMap WriterUse.item) ∧
      ∀ past, readAll (readItem past) () (written conn').length (written conn') =
          .ok (uses.filterMap WriterUse.item) ↔
        (NotCr (written conn') ∨ ∀ event ∈ events, event.isRequest = false) := by
  obtain ⟨after, last, uses, ran, kept, added, readable, served, kinds⟩ :=
    runEvents_served never answers events fits self inv conn
  rw [fresh, List.nil_append] at added
  refine ⟨after, last, uses, ran, kept, added, served, fun past => ?_⟩
  rw [added, readAll_uses past uses readable _ (Nat.le_refl _)]
  have quiet := congrArg (fun flags => ∀ flag ∈ flags, flag = false) kinds
  simp only [List.forall_mem_map] at quiet
  rw [quiet]

def sampleEvents : List ServerEvent :=
  [.request optionsRequest, .packet sampleTransmit, .request optionsRequest]

theorem sampleEvents_notCr : (runEvents listWriter testController sampleEvents 0 []).toOption.all
    (fun last => decide (NotCr last.2)) = true := by decide +kernel

theorem sampleEvents_answered : ∃ (after : Nat) (conn : List UInt8) (uses : List WriterUse),
    runEvents listWriter testController sampleEvents 0 [] = .ok (after, conn) ∧
    conn = streamOf uses ∧ Served sampleEvents (uses.filterMap WriterUse.item) ∧
    ∀ past, readAll (readItem past) () conn.length conn =
      .ok (uses.filterMap WriterUse.item) := by
  obtain ⟨after, conn, uses, ran, _, whole, served, reads⟩ :=
    requests_answered listWriter_neverFails testController_answers sampleEvents (by
      simp only [sampleEvents, List.forall_mem_cons]
      exact ⟨trivial, sampleTransmit_readable, trivial, fun _ none =>
        absurd none List.not_mem_nil⟩) 0 trivial [] rfl
  have last := sampleEvents_notCr
  rw [ran] at last
  exact ⟨after, conn, uses, ran, whole, served, fun past =>
    (reads past).mpr (Or.inl (of_decide_eq_true last))⟩

end Compy.Connection
