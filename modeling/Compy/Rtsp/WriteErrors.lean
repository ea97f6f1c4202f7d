import Compy.Rtsp.Sdp

/-!
# Errors of the writer

What a serialiser does when the writer fails.  `CHK_WRITE_ERR` leaves with the result so
far, which is not negative: the caller of a serialiser that has stopped goes on writing,
and the caller of all of them is told of no error.
-/

set_option autoImplicit false

namespace Compy.Rtsp

variable {W : Type}

/-- The writer that also keeps what each call has returned. -/
def loggedCall (call : Call W) : Call (W × List Int) := fun self =>
  ((call self.1).1, (call self.1).2, self.2 ++ [(call self.1).1])

def SdpWriter.logged (w : SdpWriter W) : SdpWriter (W × List Int) where
  write data := loggedCall (w.write data)
  writef data := loggedCall (w.writef data)
  vwritef data := loggedCall (w.vwritef data)

/-- The contract of the serialisers: no call follows one that has failed, and the failure
is returned. -/
def ErrorsPropagate (call : Call (W × List Int)) (self : W) : Prop :=
  let (ret, _, log) := call (self, [])
  (∃ returned ∈ log, returned < 0) → (∀ returned ∈ log.dropLast, 0 ≤ returned) ∧ ret < 0

/-! ## The pieces of an output -/

/-- One call to a method of the writer. -/
inductive Piece where
  | write (data : List UInt8)
  | writef (data : List UInt8)
  | vwritef (data : List UInt8)

def SdpWriter.call (w : SdpWriter W) : Piece → Call W
  | .write data => w.write data
  | .writef data => w.writef data
  | .vwritef data => w.vwritef data

/-- None of the pieces, written one after the other, is refused. -/
def SdpWriter.TakesAll (w : SdpWriter W) : List Piece → W → Prop
  | [], _ => True
  | piece :: pieces, self =>
      0 ≤ (w.call piece self).1 ∧ w.TakesAll pieces (w.call piece self).2

def SdpWriter.after (w : SdpWriter W) : List Piece → W → W
  | [], self => self
  | piece :: pieces, self => w.after pieces (w.call piece self).2

theorem SdpWriter.takesAll_append (w : SdpWriter W) (front back : List Piece) (self : W) :
    w.TakesAll (front ++ back) self ↔
      w.TakesAll front self ∧ w.TakesAll back (w.after front self) := by
  induction front generalizing self with
  | nil => exact (iff_of_eq (true_and _)).symm
  | cons piece front ih =>
      rw [List.cons_append, TakesAll, TakesAll, ih, and_assoc]
      rfl

theorem SdpWriter.after_append (w : SdpWriter W) (front back : List Piece) (self : W) :
    w.after (front ++ back) self = w.after back (w.after front self) := by
  induction front generalizing self with
  | nil => rfl
  | cons piece front ih => exact ih (w.call piece self).2

/-- What is written through the logged writer are these pieces, up to the first that is
refused. -/
structure Spells (w : SdpWriter W) (call : Call (W × List Int)) (pieces : List Piece) : Prop where
  grows : ∀ self log, log <+: (call (self, log)).2.2
  taken : ∀ self log, w.TakesAll pieces self → 0 ≤ (call (self, log)).1 ∧
    (call (self, log)).2.1 = w.after pieces self ∧
    ((∀ returned ∈ log, 0 ≤ returned) → ∀ returned ∈ (call (self, log)).2.2, 0 ≤ returned)
  refused : ∀ self log, ¬ w.TakesAll pieces self → ∃ returned ∈ (call (self, log)).2.2, returned < 0

theorem spells_call (w : SdpWriter W) (piece : Piece) :
    Spells w (loggedCall (w.call piece)) [piece] where
  grows self log := List.prefix_append log _
  taken self log takes := by
    refine ⟨takes.1, rfl, fun before returned member => ?_⟩
    rcases List.mem_append.mp member with early | last
    · exact before returned early
    · rw [List.mem_singleton.mp last]
      exact takes.1
  refused self log fails := by
    refine ⟨(w.call piece self).1, List.mem_append_right log (List.mem_singleton_self _), ?_⟩
    exact Int.not_le.mp fun takes => fails ⟨takes, trivial⟩

theorem chkWriteErr_nonneg (calls : List (Call W)) (result : Int) (self : W)
    (counted : 0 ≤ result) : 0 ≤ (chkWriteErr calls result self).1 := by
  induction calls generalizing result self with
  | nil => exact counted
  | cons call calls ih =>
      rw [chkWriteErr]
      dsimp only
      split
      · exact counted
      · rename_i taken
        exact ih _ _ (Int.add_nonneg counted (Int.not_lt.mp taken))

theorem spells_chkWriteErr (w : SdpWriter W) (calls : List (Call (W × List Int)))
    (pieces : List (List Piece)) (each : List.Forall₂ (Spells w) calls pieces) (result : Int)
    (counted : 0 ≤ result) : Spells w (chkWriteErr calls result) pieces.flatten := by
  induction each generalizing result with
  | nil =>
      exact ⟨fun _ _ => List.prefix_rfl, fun _ _ _ => ⟨counted, rfl, fun before => before⟩,
        fun _ _ fails => absurd trivial fails⟩
  | @cons call first calls pieces spells _ ih =>
      have step (self : W) (log : List Int) :
          chkWriteErr (call :: calls) result (self, log) =
            if (call (self, log)).1 < 0 then (result, (call (self, log)).2)
            else chkWriteErr calls (result + (call (self, log)).1) (call (self, log)).2 := rfl
      have more {self : W} {log : List Int} (takes : ¬ (call (self, log)).1 < 0) :=
        ih (result + (call (self, log)).1) (Int.add_nonneg counted (Int.not_lt.mp takes))
      refine ⟨fun self log => ?_, fun self log takes => ?_, fun self log fails => ?_⟩
      · rw [step]
        split
        · exact spells.grows self log
        · rename_i takes
          exact (spells.grows self log).trans ((more takes).grows _ _)
      · rw [List.flatten_cons, w.takesAll_append] at takes
        obtain ⟨counts, reached, clean⟩ := spells.taken self log takes.1
        rw [step, if_neg (Int.not_lt.mpr counts), List.flatten_cons, w.after_append, ← reached]
        obtain ⟨total, ended, cleaner⟩ := (more (Int.not_lt.mpr counts)).taken _
          (call (self, log)).2.2 (reached ▸ takes.2)
        exact ⟨total, ended, fun before => cleaner (clean before)⟩
      · rw [step]
        rw [List.flatten_cons, w.takesAll_append] at fails
        by_cases here : w.TakesAll first self
        · obtain ⟨counts, reached, _⟩ := spells.taken self log here
          rw [if_neg (Int.not_lt.mpr counts)]
          refine (more (Int.not_lt.mpr counts)).refused _ _ fun rest => ?_
          exact fails ⟨here, reached ▸ rest⟩
        · obtain ⟨returned, member, negative⟩ := spells.refused self log here
          split
          · exact ⟨returned, member, negative⟩
          · rename_i takes
            exact ⟨returned, ((more takes).grows _ _).mem member, negative⟩

/-! ## The outputs -/

/-- What the serialisers write. -/
inductive Output where
  | request (self : Request)
  | response (self : Response)
  | headerMap (self : HeaderMap)
  | header (self : Header)
  | slices (data : List (List UInt8))
  | sdpLine (self : SdpLine)
  | sdpPrintf (ty : UInt8) (formatted : List UInt8)

def Output.serialize (w : SdpWriter W) : Output → Call W
  | .request self => Request.serialize w.toWriter self
  | .response self => Response.serialize w.toWriter self
  | .headerMap self => self.serialize w.toWriter
  | .header self => self.serialize w.toWriter
  | .slices data => writeSlices w.toWriter data
  | .sdpLine self => self.serialize w.toWriter
  | .sdpPrintf ty formatted => Compy.Rtsp.sdpPrintf w ty formatted

def Header.pieces (self : Header) : List Piece :=
  [.write self.key, .write (charSlice ": "), .write self.value, .write crlf]

def HeaderMap.pieces (self : HeaderMap) : List Piece :=
  (self.headers.map Header.pieces ++ [[Piece.write crlf]]).flatten

def RequestLine.pieces (self : RequestLine) : List Piece :=
  [.write self.method, .write (charSlice " "), .write self.uri, .write (charSlice " "),
    .writef self.version.bytes, .write crlf]

def ResponseLine.pieces (self : ResponseLine) : List Piece :=
  [.writef self.version.bytes, .write (charSlice " "), .writef (decimal self.code.toNat),
    .write (charSlice " "), .write self.reason, .write crlf]

def Message.pieces {Line : Type} (linePieces : Line → List Piece) (self : Message Line) :
    List Piece :=
  ([linePieces self.startLine] ++ self.addedHeaders.map Header.pieces ++ [self.headerMap.pieces] ++
    (if self.body.isEmpty then [] else [[Piece.write self.body]])).flatten

def Output.pieces : Output → List Piece
  | .request self => self.pieces RequestLine.pieces
  | .response self => self.pieces ResponseLine.pieces
  | .headerMap self => self.pieces
  | .header self => self.pieces
  | .slices data => data.map Piece.write
  | .sdpLine self => [.write [self.ty], .write (charSlice "="), .write self.value, .write crlf]
  | .sdpPrintf ty formatted => [.writef (ty :: charSlice "="), .vwritef formatted, .write crlf]

/-! ## A rule for all of them

A serialiser is a call to the writer, or `CHK_WRITE_ERR` around serialisers. -/

section

variable (w : SdpWriter W) (R : Call W → List Piece → Prop)
  (one : ∀ piece, R (w.call piece) [piece])
  (chk : ∀ calls pieces, List.Forall₂ R calls pieces → R (chkWriteErr calls 0) pieces.flatten)

include one chk

theorem calls_rule (pieces : List Piece) : R (chkWriteErr (pieces.map w.call) 0) pieces := by
  have each : List.Forall₂ R (pieces.map w.call) (pieces.map fun piece => [piece]) := by
    rw [List.forall₂_map_left_iff, List.forall₂_map_right_iff, List.forall₂_same]
    intro piece _
    exact one piece
  have whole := chk _ _ each
  rwa [← List.flatMap_def, List.flatMap_singleton'] at whole

theorem writeSlices_rule (data : List (List UInt8)) :
    R (writeSlices w.toWriter data) (data.map Piece.write) := by
  have calls := calls_rule w R one chk (data.map Piece.write)
  rwa [List.map_map] at calls

theorem headers_rule (headers : List Header) :
    List.Forall₂ R (headers.map (Header.serialize w.toWriter)) (headers.map Header.pieces) := by
  rw [List.forall₂_map_left_iff, List.forall₂_map_right_iff, List.forall₂_same]
  intro header _
  exact writeSlices_rule w R one chk _

theorem headerMap_rule (headerMap : HeaderMap) :
    R (headerMap.serialize w.toWriter) headerMap.pieces :=
  chk _ _ (List.rel_append (headers_rule w R one chk headerMap.headers)
    (.cons (one (.write crlf)) .nil))

theorem message_rule {Line : Type} {serializeLine : Line → Call W}
    {linePieces : Line → List Piece}
    (line : ∀ startLine, R (serializeLine startLine) (linePieces startLine))
    (message : Message Line) :
    R (message.serialize serializeLine w.toWriter) (message.pieces linePieces) := by
  refine chk _ _ (List.rel_append (List.rel_append (List.rel_append
    (.cons (line message.startLine) .nil) (headers_rule w R one chk message.addedHeaders))
    (.cons (headerMap_rule w R one chk message.headerMap) .nil)) ?_)
  split
  · exact .nil
  · exact .cons (one (.write message.body)) .nil

theorem output_rule (output : Output) : R (output.serialize w) output.pieces := by
  have calls := calls_rule w R one chk
  cases output with
  | request self =>
      have line (startLine : RequestLine) : R (startLine.serialize w.toWriter) startLine.pieces :=
        calls startLine.pieces
      exact message_rule w R one chk line self
  | response self =>
      have line (startLine : ResponseLine) : R (startLine.serialize w.toWriter) startLine.pieces :=
        calls startLine.pieces
      exact message_rule w R one chk line self
  | headerMap self => exact headerMap_rule w R one chk self
  | header self => exact writeSlices_rule w R one chk _
  | slices data => exact writeSlices_rule w R one chk data
  | sdpLine self => exact writeSlices_rule w R one chk _
  | sdpPrintf ty formatted =>
      exact calls [.writef (ty :: charSlice "="), .vwritef formatted, .write crlf]

end

theorem spells_output (w : SdpWriter W) (output : Output) :
    Spells w (output.serialize w.logged) output.pieces := by
  apply output_rule w.logged (Spells w)
  · intro piece
    have logged : w.logged.call piece = loggedCall (w.call piece) := by cases piece <;> rfl
    rw [logged]
    exact spells_call w piece
  · intro calls pieces each
    exact spells_chkWriteErr w calls pieces each 0 (Int.le_refl 0)

/-- A serialiser leaves through `CHK_WRITE_ERR` or at its end. -/
theorem output_nonneg (w : SdpWriter W) (output : Output) (self : W) :
    0 ≤ (output.serialize w self).1 := by
  cases output <;> exact chkWriteErr_nonneg _ 0 self (Int.le_refl 0)

theorem errorsPropagate_iff (w : SdpWriter W) (self : W) (output : Output) :
    ErrorsPropagate (output.serialize w.logged) self ↔ w.TakesAll output.pieces self := by
  have spells := spells_output w output
  constructor
  · intro propagates
    by_contra fails
    have failed := propagates (spells.refused self [] fails)
    exact absurd (output_nonneg w.logged output (self, [])) (Int.not_le.mpr failed.2)
  · rintro takes ⟨returned, member, negative⟩
    have clean := (spells.taken self [] takes).2.2 (fun _ absent => absurd absent List.not_mem_nil)
    exact absurd (clean returned member) (Int.not_le.mpr negative)

def failsOnce : SdpWriter Nat where
  write data := fun calls => (if calls = 0 then -1 else data.length, calls + 1)
  writef data := fun calls => (if calls = 0 then -1 else data.length, calls + 1)
  vwritef data := fun calls => (if calls = 0 then -1 else data.length, calls + 1)

def bareResponse : Response where
  startLine := { version := { major := 1, minor := 0 }, code := 200, reason := charSlice "OK" }
  headerMap := HeaderMap.empty
  body := []
  cseq := 1

/-- The status line is lost; the headers behind it are written and counted. -/
theorem response_torn :
    Response.serialize failsOnce.logged.toWriter bareResponse (0, []) =
        (11, 6, [-1, 4, 2, 1, 2, 2]) ∧
      ¬ ErrorsPropagate (Response.serialize failsOnce.logged.toWriter bareResponse) 0 := by
  have torn : Response.serialize failsOnce.logged.toWriter bareResponse (0, []) =
      (11, 6, [-1, 4, 2, 1, 2, 2]) := rfl
  refine ⟨torn, fun propagates => ?_⟩
  rw [ErrorsPropagate, torn] at propagates
  exact absurd (propagates ⟨-1, by decide, by decide⟩).2 (by decide)

end Compy.Rtsp
