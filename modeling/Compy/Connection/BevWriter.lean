import Compy.Connection.EventLoop
import Compy.Connection.Threads

/-!
# The writer of the example server

`BevWriter` of `compy-libevent.c`: a formatted text goes through a buffer of 1024 bytes, and the
bufferevent is told to take the whole length of the text from it.  No text that the library
formats for a response is that long, so that a connection over this writer is one over a writer
that just takes everything.
-/

set_option autoImplicit false

namespace Compy.Connection

open CheckedBytes Framing Interaction Compy.Rtsp Compy.Tls

/-- The output of a bufferevent, or the fault when it has been told to read where nothing is. -/
abbrev Bufferevent := Access (List UInt8)

/-- `bufferevent_write`, which takes whatever it is given. -/
def buffereventWrite (span : Span) (self : Bufferevent) : Bufferevent := do
  let before ← self
  let bytes ← span.bytes
  return before ++ bytes

namespace BevWriter

def write (data : List UInt8) : Call Bufferevent := fun self =>
  (data.length, buffereventWrite ⟨data, data.length⟩ self)

/-- `stack` is what the buffer holds before. -/
def vwritef (stack : FormatBuf) (text : List UInt8) : Call Bufferevent := fun self =>
  let (n, tmp) := vsnprintf stack.toList text
  (n, if 0 < n then buffereventWrite ⟨tmp, n.toNat⟩ self else self)

def writef (stack : FormatBuf) (text : List UInt8) : Call Bufferevent := vwritef stack text

def filled (self : Bufferevent) : Access Nat := self.map List.length

end BevWriter

def bevWriter (stack : FormatBuf) : SdpWriter Bufferevent where
  write := BevWriter.write
  writef := BevWriter.writef stack
  vwritef := BevWriter.vwritef stack

/-! ## One call -/

theorem span_bytes (data : List UInt8) : Span.bytes ⟨data, data.length⟩ = .ok data := by
  rw [Span.bytes, readBytes_ok _ _ _ (Nat.le_of_eq (Nat.zero_add _)), List.drop_zero,
    List.take_length]

theorem bev_write (data out : List UInt8) :
    BevWriter.write data (Except.ok out) = ((data.length : Int), Except.ok (out ++ data)) := by
  simp only [BevWriter.write, buffereventWrite, span_bytes, ok_bind]
  rfl

theorem bev_vwritef (stack : FormatBuf) (text out : List UInt8) :
    (BevWriter.vwritef stack text (Except.ok out)).2 =
      (formatted stack text).map (out ++ ·) := by
  rw [formatted]
  by_cases unformattable : Unformattable text
  · have returned := vsnprintf_unformattable stack.toList unformattable
    simp [BevWriter.vwritef, returned, unformattable, Except.map]
  · have returned := vsnprintf_formattable stack.toList unformattable
    rw [if_neg unformattable]
    cases text with
    | nil => simp [BevWriter.vwritef, returned, readBytes, Except.map]
    | cons first rest =>
        have more : 0 < (vsnprintf stack.toList (first :: rest)).1 := by
          rw [returned]
          exact Int.natCast_pos.mpr (Nat.succ_pos _)
        simp only [BevWriter.vwritef, if_pos more, buffereventWrite, Span.bytes, ok_bind]
        rw [returned, Int.toNat_natCast]
        cases readBytes (vsnprintf stack.toList (first :: rest)).2 0 (first :: rest).length <;> rfl

theorem bev_vwritef_fits (stack : FormatBuf) {text : List UInt8} (fits : FitsBuf text)
    (out : List UInt8) : BevWriter.vwritef stack text (Except.ok out) =
      ((text.length : Int), Except.ok (out ++ text)) := by
  have behind := bev_vwritef stack text out
  rw [formatted_fits stack fits] at behind
  have short : ¬ Unformattable text := by
    rw [Unformattable]
    rcases fits with _ | _ <;> omega
  exact Prod.ext (vsnprintf_formattable stack.toList short) behind

/-! ## In step with a writer that takes everything -/

/-- The two calls do the same, the other one to the list of what was written. -/
def InStep (call : Call Bufferevent) (other : Call (List UInt8)) : Prop :=
  ∀ out, call (Except.ok out) = ((other out).1, Except.ok (other out).2)

theorem inStep_chkWriteErr (calls : List (Call Bufferevent)) (others : List (Call (List UInt8)))
    (each : List.Forall₂ InStep calls others) (result : Int) :
    InStep (chkWriteErr calls result) (chkWriteErr others result) := by
  induction each generalizing result with
  | nil => exact fun out => rfl
  | @cons call other calls others same _ ih =>
      intro out
      rw [chkWriteErr, chkWriteErr, same out]
      dsimp only
      split
      · rfl
      · exact ih _ _

theorem inStep_write (stack : FormatBuf) (data : List UInt8) :
    InStep ((bevWriter stack).write data) (listWriter.write data) := bev_write data

theorem inStep_writef (stack : FormatBuf) {text : List UInt8} (fits : FitsBuf text) :
    InStep ((bevWriter stack).writef text) (listWriter.writef text) := bev_vwritef_fits stack fits

theorem inStep_header (stack : FormatBuf) (header : Header) :
    InStep (header.serialize (bevWriter stack).toWriter) (header.serialize listWriter) := by
  refine inStep_chkWriteErr _ _ ?_ 0
  rw [List.forall₂_map_left_iff, List.forall₂_map_right_iff, List.forall₂_same]
  exact fun data _ => inStep_write stack data

theorem inStep_headers (stack : FormatBuf) (headers : List Header) :
    List.Forall₂ InStep (headers.map (Header.serialize (bevWriter stack).toWriter))
      (headers.map (Header.serialize listWriter)) := by
  rw [List.forall₂_map_left_iff, List.forall₂_map_right_iff, List.forall₂_same]
  exact fun header _ => inStep_header stack header

theorem inStep_responseLine (stack : FormatBuf) (line : ResponseLine) :
    InStep (line.serialize (bevWriter stack).toWriter) (line.serialize listWriter) := by
  have version := version_short line.version
  have code := decimal_length (n := line.code.toNat) (e := 5) (by decide)
    (Nat.lt_trans line.code.toNat_lt (by decide))
  have versionFits : FitsBuf line.version.bytes := Or.inl (by omega)
  have codeFits : FitsBuf (decimal line.code.toNat) := Or.inl (by omega)
  exact inStep_chkWriteErr _ _ (.cons (inStep_writef stack versionFits)
    (.cons (inStep_write stack _) (.cons (inStep_writef stack codeFits)
      (.cons (inStep_write stack _) (.cons (inStep_write stack _)
        (.cons (inStep_write stack _) .nil)))))) 0

theorem inStep_response (stack : FormatBuf) (response : Response) :
    InStep (Response.serialize (bevWriter stack).toWriter response)
      (Response.serialize listWriter response) := by
  have map : InStep (response.headerMap.serialize (bevWriter stack).toWriter)
      (response.headerMap.serialize listWriter) :=
    inStep_chkWriteErr _ _ (List.rel_append (inStep_headers stack response.headerMap.headers)
      (.cons (inStep_write stack crlf) .nil)) 0
  refine inStep_chkWriteErr _ _ (List.rel_append (List.rel_append (List.rel_append
    (.cons (inStep_responseLine stack response.startLine) .nil)
    (inStep_headers stack response.addedHeaders)) (.cons map .nil)) ?_) 0
  split
  · exact .nil
  · exact .cons (inStep_write stack response.body) .nil

/-! ## A connection over the writer -/

variable {σ : Type}

theorem contextCalls_bev (stack : FormatBuf) (command : ContextCall)
    (exchange : Exchange (List UInt8)) :
    contextCalls (bevWriter stack).toWriter command
        ⟨exchange.context, Except.ok exchange.writer, exchange.ret⟩ =
      (contextCalls listWriter command exchange).map fun (answer, after) =>
        (answer, ⟨after.context, Except.ok after.writer, after.ret⟩) := by
  cases command with
  | header key text =>
      rw [contextCalls, contextCalls]
      cases exchange.context.vheader key text <;> rfl
  | body body => rfl
  | respond code reason =>
      rw [contextCalls, contextCalls]
      dsimp only
      rw [inStep_response stack (exchange.context.respond code reason) exchange.writer]
      rfl
  | getRet => rfl

theorem dispatch_bev (stack : FormatBuf) (controller : Controller σ) (req : Request) (self : σ)
    (out : List UInt8) :
    dispatch (bevWriter stack).toWriter controller req self (Except.ok out) =
      (dispatch listWriter controller req self out).map fun (self, out) =>
        (self, Except.ok out) := by
  have image := Program.run_map (fun exchange : Exchange (List UInt8) =>
    (⟨exchange.context, Except.ok exchange.writer, exchange.ret⟩ : Exchange Bufferevent))
    (contextCalls_bev stack) (controller.handle req self) (.new out req.cseq)
  rw [dispatch, dispatch]
  refine (congrArg (· >>= _) image).trans ?_
  cases (controller.handle req self).run (contextCalls listWriter) (.new out req.cseq) <;> rfl

theorem dispatchAll_bev (stack : FormatBuf) (controller : Controller σ) (reqs : List Request)
    (self : σ) (out : List UInt8) :
    dispatchAll (serve (bevWriter stack).toWriter controller) reqs (self, Except.ok out) =
      (dispatchAll (serve listWriter controller) reqs (self, out)).map fun (self, out) =>
        (self, Except.ok out) := by
  induction reqs generalizing self out with
  | nil => rfl
  | cons req reqs ih =>
      rw [dispatchAll, dispatchAll, serve, serve]
      dsimp only
      rw [dispatch_bev]
      cases dispatch listWriter controller req self out with
      | error fault => rfl
      | ok next => exact ih next.1 next.2

/-- The same over the writer of the example server: no access leaves the buffer that formats texts
either. -/
theorem bufferevent_answered (stack : FormatBuf) {controller : Controller σ} {Inv : σ → Prop}
    (answers : controller.Answers FromParser Inv) (arrivals : List Arrival) (self : σ)
    (inv : Inv self) :
    ∃ (ctx : LibeventCtx) (after : σ) (out : List UInt8) (responses : List Response),
      runCallbacks (serve (bevWriter stack).toWriter controller)
        (arrivals.flatMap Arrival.chunks) .new (self, Except.ok []) =
          .ok (ctx, after, Except.ok out) ∧ ctx.data = [] ∧ Inv after ∧
      List.Forall₂ (fun arrival response => response.cseq = arrival.req.cseq) arrivals responses ∧
      ∀ past, readAll (readItem past) () out.length out = .ok (responses.map .response) := by
  obtain ⟨ctx, _, empty, runs⟩ := arrivals_dispatched arrivals LibeventCtx.new_valid rfl
  obtain ⟨ctx', after, out, responses, ran, _, kept, each, read⟩ :=
    session_answered listWriter_neverFails answers arrivals self inv [] rfl
  refine ⟨ctx, after, out, responses, ?_, empty, kept, each, read⟩
  rw [runs] at ran ⊢
  rw [dispatchAll_bev]
  cases dispatched : dispatchAll (serve listWriter controller) (arrivals.map Arrival.req)
      (self, []) with
  | error fault =>
      rw [dispatched] at ran
      contradiction
  | ok last =>
      rw [dispatched] at ran
      cases ran
      rfl

theorem testController_bufferevent :
    ∃ (ctx : LibeventCtx) (after : Nat) (out : List UInt8) (responses : List Response),
      runCallbacks (serve (bevWriter (Vector.replicate 1024 0)).toWriter testController)
        ([sampleArrival, sampleArrival].flatMap Arrival.chunks) .new (0, Except.ok []) =
          .ok (ctx, after, Except.ok out) ∧ ctx.data = [] ∧ True ∧
      List.Forall₂ (fun arrival response => response.cseq = arrival.req.cseq)
        [sampleArrival, sampleArrival] responses ∧
      ∀ past, readAll (readItem past) () out.length out = .ok (responses.map .response) :=
  bufferevent_answered (Vector.replicate 1024 0)
    ⟨fun req self _ inv => testController_answers.once req self trivial inv⟩
    [sampleArrival, sampleArrival] 0 trivial

end Compy.Connection
