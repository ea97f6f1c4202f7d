import Compy.Rtsp.RoundTrip
import Compy.Tcp.Transport

/-!
# Responses and frames on one connection

The server writes its responses and the frames of its TCP transports to the same
connection.  A client takes them apart again: at a `$` it reads a frame, everywhere else it
parses a response.
-/

set_option autoImplicit false

namespace Compy.Connection

open Framing IncrementalParsing Compy.Rtsp Compy.Tcp

inductive WriterUse where
  | respond (response : Response)
  | transmit (call : Transmit)

def WriterUse.isRespond : WriterUse → Bool
  | .respond _ => true
  | .transmit _ => false

def WriterUse.bytes : WriterUse → List UInt8
  | .respond response => response.bytes ResponseLine.bytes
  | .transmit call => call.emitted

/-- `write` as the transports call it. -/
def asWrite {W : Type} (w : Writer W) : Write W := fun data self =>
  some ((w.write data self).2, (w.write data self).1)

def WriterUse.run {W : Type} (w : Writer W) : WriterUse → Call W
  | .respond response => Response.serialize w response
  | .transmit call => fun self =>
      match call.transport.transmit (asWrite w) call.allocated call.bufs self with
      | some (self, ret) => (ret, self)
      | none => (-1, self)

def runUses {W : Type} (w : Writer W) (uses : List WriterUse) (self : W) : W :=
  uses.foldl (fun self use => (use.run w self).2) self

inductive Item where
  | response (response : Response)
  | frame (channelId : UInt8) (payload : List UInt8)

/-- The response with the headers that the serialiser adds. -/
def delivered (response : Response) : Response :=
  if bounded : (response.addedHeaders ++ response.headerMap.headers).length ≤ headerMapCapacity then
    { response with headerMap := ⟨response.addedHeaders ++ response.headerMap.headers, bounded⟩ }
  else response

def WriterUse.item : WriterUse → Option Item
  | .respond response => some (.response (delivered response))
  | .transmit call =>
      if call.refused then none else some (.frame call.transport.channelId call.bufs.flatten)

/-- One response or one frame from the front of what has come; `past` lies behind it. -/
def readItem (past : Option UInt8) (input : List UInt8) : Except Unit (Item × List UInt8) :=
  if input.head? = some '$'.toUInt8 then
    match readFrame input with
    | .ok ((channelId, payload), rest) => .ok (.frame channelId payload, rest)
    | .error _ => .error ()
  else
    match Response.parse past input with
    | .Complete offset response => .ok (.response response, input.drop offset)
    | _ => .error ()

def WriterUse.Readable : WriterUse → Prop
  | .respond response => response.Writable ResponseLine.Writable
  | .transmit call => call.bufs.flatten.length < 2 ^ 16

def streamOf (uses : List WriterUse) : List UInt8 := uses.flatMap WriterUse.bytes

/-! ## One item -/

theorem respond_bytes (response : Response) : ∃ rest,
    response.bytes ResponseLine.bytes = 'R'.toUInt8 :: rest := ⟨_, rfl⟩

theorem respond_head (response : Response) (rest : List UInt8) :
    (response.bytes ResponseLine.bytes ++ rest).head? ≠ some '$'.toUInt8 := by
  obtain ⟨more, starts⟩ := respond_bytes response
  have head : (response.bytes ResponseLine.bytes ++ rest).head? = some 'R'.toUInt8 := by
    rw [starts]
    rfl
  rw [head]
  decide

theorem delivered_eq {response : Response} (writable : response.Writable ResponseLine.Writable)
    {sent : HeaderMap} (sends : response.Sent sent) :
    delivered response = { response with headerMap := sent } := by
  have room := writable.room
  rw [← List.length_append] at room
  obtain ⟨headers, bounded⟩ := sent
  cases sends
  exact dif_pos room

/-- A response is read where the whole input does not end in a carriage return. -/
theorem parse_respond {response : Response} (writable : response.Writable ResponseLine.Writable)
    (past : Option UInt8) (rest : List UInt8)
    (notCr : NotCr (response.bytes ResponseLine.bytes ++ rest)) :
    Response.parse past (response.bytes ResponseLine.bytes ++ rest) =
      .Complete (response.bytes ResponseLine.bytes).length (delivered response) := by
  obtain ⟨sent, sends, parsed⟩ := Message.parse_bytes response writable
    (responseLine_reads response.startLine writable.startLine) past
  rw [← delivered_eq writable sends] at parsed
  have followed := message_followed_iff responseLine_starts past past _ rest _ _ parsed
  rw [List.take_length] at followed
  exact followed.mpr notCr

theorem readItem_respond {response : Response}
    (writable : response.Writable ResponseLine.Writable) (past : Option UInt8) (rest : List UInt8)
    (notCr : NotCr (response.bytes ResponseLine.bytes ++ rest)) :
    readItem past (response.bytes ResponseLine.bytes ++ rest) =
      .ok (.response (delivered response), rest) := by
  rw [readItem, if_neg (respond_head response rest), parse_respond writable past rest notCr]
  dsimp only
  rw [List.drop_left]

theorem readItem_cr {input : List UInt8} (other : input.head? ≠ some '$'.toUInt8)
    (cr : ¬ NotCr input) (past : Option UInt8) : readItem past input = .error () := by
  rw [readItem, if_neg other]
  cases parsed : Response.parse past input with
  | Complete offset response =>
      exact absurd (message_notCr ResponseLine.parse past input offset response parsed) cr
  | Partial | Failure _ | Fault => rfl

theorem readItem_frame (call : Transmit) (short : call.bufs.flatten.length < 2 ^ 16)
    (past : Option UInt8) (rest : List UInt8) :
    readItem past (call.frame ++ rest) =
      .ok (.frame call.transport.channelId call.bufs.flatten, rest) := by
  have dollar : (call.frame ++ rest).head? = some '$'.toUInt8 := by
    rw [Transmit.frame, coalesce_eq]
    rfl
  rw [readItem, if_pos dollar, Transmit.frame, readFrame_coalesce, Nat.mod_eq_of_lt short,
    List.take_left, List.drop_left]

/-! ## The whole connection -/

theorem streamOf_cons (use : WriterUse) (uses : List WriterUse) :
    streamOf (use :: uses) = use.bytes ++ streamOf uses := List.flatMap_cons

theorem notCr_behind {front rest : List UInt8} (more : rest ≠ []) :
    NotCr (front ++ rest) ↔ NotCr rest := by
  obtain ⟨init, last, rfl⟩ := (List.eq_nil_or_concat rest).resolve_left more
  simp [NotCr, ← List.append_assoc]

theorem notCr_rest {front rest : List UInt8} (notCr : NotCr (front ++ rest)) : NotCr rest := by
  cases rest with
  | nil => exact nofun
  | cons first rest => exact (notCr_behind (List.cons_ne_nil _ _)).mp notCr

theorem streamOf_ne_nil {uses : List WriterUse} (responds : ∃ use ∈ uses, use.isRespond = true) :
    streamOf uses ≠ [] := by
  obtain ⟨use, member, respond⟩ := responds
  cases use with
  | transmit call => cases respond
  | respond response =>
      obtain ⟨rest, starts⟩ := respond_bytes response
      intro empty
      have nothing := List.flatMap_eq_nil_iff.mp empty _ member
      rw [WriterUse.bytes, starts] at nothing
      cases nothing

theorem readAll_uses (past : Option UInt8) (uses : List WriterUse)
    (readable : ∀ use ∈ uses, use.Readable) (fuel : Nat)
    (enough : (streamOf uses).length ≤ fuel) :
    readAll (readItem past) () fuel (streamOf uses) = .ok (uses.filterMap WriterUse.item) ↔
      (NotCr (streamOf uses) ∨ ∀ use ∈ uses, use.isRespond = false) := by
  induction uses generalizing fuel with
  | nil =>
      exact iff_of_true (by cases fuel <;> rfl) (Or.inr fun _ none => absurd none List.not_mem_nil)
  | cons use uses ih =>
      obtain ⟨here, later⟩ := List.forall_mem_cons.mp readable
      rw [streamOf_cons] at enough ⊢
      rw [List.length_append] at enough
      cases use with
      | transmit call =>
          have others : (∀ use ∈ WriterUse.transmit call :: uses, use.isRespond = false) ↔
              ∀ use ∈ uses, use.isRespond = false := by
            rw [List.forall_mem_cons]
            exact and_iff_right rfl
          rw [others]
          cases refused : call.refused with
          | true =>
              obtain ⟨emitted, _⟩ := call.of_refused refused
              rw [WriterUse.bytes, emitted] at enough ⊢
              rw [List.filterMap_cons_none (by rw [WriterUse.item, if_pos refused])]
              exact ih later fuel (Nat.le_of_add_left_le enough)
          | false =>
              obtain ⟨emitted, _⟩ := call.of_accepted refused
              have length := call.length_frame
              rw [Transmit.total, interleavedHeaderSize] at length
              rw [WriterUse.bytes, emitted] at enough ⊢
              obtain ⟨fuel, rfl⟩ : ∃ left, fuel = left + 1 := ⟨fuel - 1, by omega⟩
              have more : call.frame ++ streamOf uses ≠ [] :=
                List.append_ne_nil_of_left_ne_nil (coalesce_ne_nil _ _) _
              rw [List.filterMap_cons_some (by rw [WriterUse.item, if_neg (by simp [refused])]),
                readAll_step_iff more (readItem_frame call here past _), and_iff_right rfl,
                ih later fuel (by omega)]
              by_cases quiet : ∀ use ∈ uses, use.isRespond = false
              · exact iff_of_true (Or.inr quiet) (Or.inr quiet)
              · push Not at quiet
                obtain ⟨use, member, respond⟩ := quiet
                have responds : ∃ use ∈ uses, use.isRespond = true :=
                  ⟨use, member, by simpa using respond⟩
                rw [notCr_behind (streamOf_ne_nil responds)]
      | respond response =>
          obtain ⟨rest, starts⟩ := respond_bytes response
          have length := congrArg List.length starts
          rw [List.length_cons] at length
          rw [WriterUse.bytes] at enough ⊢
          obtain ⟨fuel, rfl⟩ : ∃ left, fuel = left + 1 := ⟨fuel - 1, by omega⟩
          have more : response.bytes ResponseLine.bytes ++ streamOf uses ≠ [] := by
            rw [starts]
            exact List.cons_ne_nil _ _
          have responds : ¬ ∀ use ∈ WriterUse.respond response :: uses, use.isRespond = false :=
            fun none => Bool.noConfusion (none _ List.mem_cons_self)
          rw [or_iff_left responds]
          by_cases notCr : NotCr (response.bytes ResponseLine.bytes ++ streamOf uses)
          · rw [List.filterMap_cons_some (show WriterUse.item (.respond response) = _ from rfl),
              readAll_step_iff more (readItem_respond here past _ notCr), and_iff_right rfl,
              ih later fuel (by omega)]
            exact iff_of_true (Or.inl (notCr_rest notCr)) notCr
          · refine iff_of_false ?_ notCr
            have stuck := readItem_cr (respond_head response _) notCr past
            generalize response.bytes ResponseLine.bytes ++ streamOf uses = input at more stuck
            cases input with
            | nil => exact absurd rfl more
            | cons first input =>
                rw [readAll, stuck]
                intro same
                cases same

/-! ## The writer behind the connection -/

section

variable {W : Type} (w : Writer W)

theorem run_transmit (call : Transmit) (self : W) : (WriterUse.transmit call).run w self =
    if call.refused then (-1, self)
    else (if (w.write call.frame self).1 = call.total then 0 else -1,
      (w.write call.frame self).2) := by
  rw [WriterUse.run]
  dsimp only
  rw [call.transmit_eq]
  split
  · rename_i next ret ran
    split at ran
    · cases ran
      rw [if_pos (by assumption)]
    · rw [if_neg (by assumption)]
      cases ran
      rfl
  · rename_i ran
    split at ran <;> cases ran

variable {w} {written : W → List UInt8} (never : w.NeverFails written)

include never

theorem use_written (use : WriterUse) (self : W) :
    written (use.run w self).2 = written self ++ use.bytes := by
  cases use with
  | respond response =>
      exact (writes_message never (writes_responseLine never) response self).2
  | transmit call =>
      rw [run_transmit, WriterUse.bytes, Transmit.emitted]
      split
      · exact (List.append_nil _).symm
      · exact never.write_adds _ self

theorem uses_written (uses : List WriterUse) (self : W) :
    written (runUses w uses self) = written self ++ streamOf uses := by
  induction uses generalizing self with
  | nil => exact (List.append_nil _).symm
  | cons use uses ih =>
      have later := ih (use.run w self).2
      rw [use_written never, List.append_assoc] at later
      exact later

theorem connection_read_iff (uses : List WriterUse) (readable : ∀ use ∈ uses, use.Readable)
    (past : Option UInt8) (self : W) (fresh : written self = []) :
    readAll (readItem past) () (written (runUses w uses self)).length
        (written (runUses w uses self)) = .ok (uses.filterMap WriterUse.item) ↔
      (NotCr (written (runUses w uses self)) ∨ ∀ use ∈ uses, use.isRespond = false) := by
  rw [uses_written never, fresh, List.nil_append]
  exact readAll_uses past uses readable _ (Nat.le_refl _)

end

def sampleTransmit : Transmit where
  transport := ⟨1⟩
  bufs := [[0x80, 96], [13, 10]]
  allocated := true

theorem sampleTransmit_readable : (WriterUse.transmit sampleTransmit).Readable :=
  show sampleTransmit.bufs.flatten.length < 2 ^ 16 by decide

/-- A frame before a response and a frame behind it. -/
theorem sample_connection_read :
    readAll (readItem none) ()
        (runUses listWriter [.transmit sampleTransmit, .respond okResponse,
          .transmit sampleTransmit] []).length
        (runUses listWriter [.transmit sampleTransmit, .respond okResponse,
          .transmit sampleTransmit] []) =
      .ok ([WriterUse.transmit sampleTransmit, .respond okResponse,
        .transmit sampleTransmit].filterMap WriterUse.item) := by
  refine (connection_read_iff listWriter_neverFails [.transmit sampleTransmit, .respond okResponse,
    .transmit sampleTransmit] ?_ none [] rfl).mpr (Or.inl ?_)
  · simp only [List.forall_mem_cons]
    exact ⟨sampleTransmit_readable, okResponse_writable, sampleTransmit_readable,
      fun _ none => absurd none List.not_mem_nil⟩
  · have last : (id (runUses listWriter [.transmit sampleTransmit, .respond okResponse,
        .transmit sampleTransmit] [])).getLast? = some 10 := rfl
    rw [NotCr, last]
    decide

end Compy.Connection
