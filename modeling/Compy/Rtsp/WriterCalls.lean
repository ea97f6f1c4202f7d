import Compy.Rtsp.WriteErrors

/-!
# Sequences of writer calls

What a program writes that goes through the serialisers and through the methods of the
writer, one call after the other and without a look at what they return.
-/

set_option autoImplicit false

namespace Compy.Rtsp

variable {W : Type}

inductive WriterCall where
  | serialize (output : Output)
  | direct (piece : Piece)

def WriterCall.run (w : SdpWriter W) : WriterCall → Call W
  | .serialize output => output.serialize w
  | .direct piece => w.call piece

def WriterCall.pieces : WriterCall → List Piece
  | .serialize output => output.pieces
  | .direct piece => [piece]

def runCalls (w : SdpWriter W) : List WriterCall → W → W
  | [], self => self
  | call :: calls, self => runCalls w calls (call.run w self).2

def Piece.bytes : Piece → List UInt8
  | .write data | .writef data | .vwritef data => data

def piecesBytes (pieces : List Piece) : List UInt8 := (pieces.map Piece.bytes).flatten

@[simp] theorem piecesBytes_nil : piecesBytes [] = [] := rfl

@[simp] theorem piecesBytes_cons (piece : Piece) (pieces : List Piece) :
    piecesBytes (piece :: pieces) = piece.bytes ++ piecesBytes pieces := rfl

/-- The call gives some of the pieces to the writer, in their order; all of them where none
is refused. -/
def Performs (w : SdpWriter W) (call : Call W) (pieces : List Piece) : Prop :=
  ∀ self, ∃ called, called.Sublist pieces ∧ (call self).2 = w.after called self ∧
    (w.TakesAll pieces self → called = pieces ∧ 0 ≤ (call self).1)

theorem performs_call (w : SdpWriter W) (piece : Piece) : Performs w (w.call piece) [piece] := by
  intro self
  refine ⟨[piece], List.Sublist.refl _, rfl, ?_⟩
  intro takes
  exact ⟨rfl, takes.1⟩

theorem performs_chkWriteErr (w : SdpWriter W) (calls : List (Call W))
    (pieces : List (List Piece)) (each : List.Forall₂ (Performs w) calls pieces) (result : Int)
    (counted : 0 ≤ result) : Performs w (chkWriteErr calls result) pieces.flatten := by
  induction each generalizing result with
  | nil =>
      intro self
      exact ⟨[], List.Sublist.refl _, rfl, fun _ => ⟨rfl, counted⟩⟩
  | @cons call first calls pieces performs _ ih =>
      intro self
      obtain ⟨early, part, reached, whole⟩ := performs self
      rw [List.flatten_cons, w.takesAll_append, chkWriteErr]
      dsimp only
      by_cases failed : (call self).1 < 0
      · rw [if_pos failed]
        refine ⟨early, part.trans (List.sublist_append_left _ _), reached, ?_⟩
        intro takes
        obtain ⟨_, counts⟩ := whole takes.1
        omega
      · rw [if_neg failed]
        obtain ⟨late, others, ended, all⟩ := ih (result + (call self).1)
          (Int.add_nonneg counted (Int.not_lt.mp failed)) (call self).2
        refine ⟨early ++ late, part.append others, ?_, ?_⟩
        · rw [ended, reached, w.after_append]
        · intro takes
          obtain ⟨same, _⟩ := whole takes.1
          rw [same] at reached
          rw [← reached] at takes
          obtain ⟨rest, counts⟩ := all takes.2
          exact ⟨by rw [same, rest], counts⟩

theorem performs_writerCall (w : SdpWriter W) (call : WriterCall) :
    Performs w (call.run w) call.pieces := by
  cases call with
  | serialize output =>
      apply output_rule w (Performs w) (performs_call w)
      intro calls pieces each
      exact performs_chkWriteErr w calls pieces each 0 (Int.le_refl 0)
  | direct piece => exact performs_call w piece

theorem runCalls_pieces (w : SdpWriter W) (calls : List WriterCall) (self : W) :
    ∃ called, called.Sublist (calls.flatMap WriterCall.pieces) ∧
      runCalls w calls self = w.after called self ∧
      (w.TakesAll (calls.flatMap WriterCall.pieces) self →
        called = calls.flatMap WriterCall.pieces) := by
  induction calls generalizing self with
  | nil => exact ⟨[], List.Sublist.refl _, rfl, fun _ => rfl⟩
  | cons call calls ih =>
      obtain ⟨early, part, reached, whole⟩ := performs_writerCall w call self
      obtain ⟨late, others, ended, all⟩ := ih (call.run w self).2
      rw [List.flatMap_cons, w.takesAll_append]
      refine ⟨early ++ late, part.append others, ?_, ?_⟩
      · rw [runCalls, ended, reached, w.after_append]
      · intro takes
        obtain ⟨same, _⟩ := whole takes.1
        rw [same] at reached
        rw [← reached] at takes
        rw [same, all takes.2]

theorem runCalls_taken {w : SdpWriter W} {calls : List WriterCall} {self : W}
    (takes : w.TakesAll (calls.flatMap WriterCall.pieces) self) :
    runCalls w calls self = w.after (calls.flatMap WriterCall.pieces) self := by
  obtain ⟨called, _, ended, all⟩ := runCalls_pieces w calls self
  rw [ended, all takes]

end Compy.Rtsp
