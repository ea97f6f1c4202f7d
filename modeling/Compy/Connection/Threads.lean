import Compy.Connection.Demultiplex
import Compy.Library.MutualExclusion
import Compy.Tls.Writer

/-!
# Threads on one TLS connection

One thread answers requests while others send media on the interleaved channels of the same
connection.  `compy_respond` and the TCP transport hold the lock of the writer around what
they write; the formatted writes of the TLS writer take the same lock once more.  Whatever
the backend does, the threads leave the connection as if the calls had come one after the
other.
-/

set_option autoImplicit false

namespace Compy.Connection

open CheckedBytes Framing MutualExclusion Compy.Rtsp Compy.Tcp Compy.Tls

variable {σ : Type}

/-- A call in single steps; what it returns decides how the program goes on. -/
abbrev Routine (W : Type) := (Int → Program W) → Program W

/-- `CHK_WRITE_ERR` around each of the routines. -/
def chkSteps {W : Type} : List (Routine W) → Int → Routine W
  | [], result, next => next result
  | routine :: routines, result, next =>
      routine fun ret => if ret < 0 then next result else chkSteps routines (result + ret) next

section

variable (ops : CryptoTlsOps σ) (stack : σ → FormatBuf)

/-- `TlsWriter_write`, called under the lock. -/
def writeSteps (data : List UInt8) : Routine (TlsConn σ) := fun next =>
  .act (fun conn => (TlsWriter.write ops data conn).2)
    fun conn => next (TlsWriter.write ops data conn).1

/-- `TlsWriter_vwritef`: the look at the mark, and the write under the lock. -/
def vwritefSteps (text : List UInt8) : Routine (TlsConn σ) := fun next =>
  .act id fun conn =>
    if conn.dead then next (-1)
    else .lock (.act (fun conn => (TlsWriter.vwritef ops stack text conn).2)
      fun conn => .unlock (next (TlsWriter.vwritef ops stack text conn).1))

def pieceSteps : Piece → Routine (TlsConn σ)
  | .write data => writeSteps ops data
  | .writef text | .vwritef text => vwritefSteps ops stack text

def headerSteps (header : Header) : Routine (TlsConn σ) :=
  chkSteps (header.pieces.map (pieceSteps ops stack)) 0

def headerMapSteps (headerMap : HeaderMap) : Routine (TlsConn σ) :=
  chkSteps (headerMap.headers.map (headerSteps ops stack) ++ [pieceSteps ops stack (.write crlf)]) 0

def responseLineSteps (line : ResponseLine) : Routine (TlsConn σ) :=
  chkSteps (line.pieces.map (pieceSteps ops stack)) 0

def responseSteps (response : Response) : Routine (TlsConn σ) :=
  chkSteps ([responseLineSteps ops stack response.startLine] ++
    response.addedHeaders.map (headerSteps ops stack) ++
    [headerMapSteps ops stack response.headerMap] ++
    (if response.body.isEmpty then [] else [pieceSteps ops stack (.write response.body)])) 0

/-- `compy_respond` and `Compy_TcpTransport_transmit`. -/
def WriterUse.steps : WriterUse → Program (TlsConn σ)
  | .respond response => .lock (responseSteps ops stack response fun _ => .unlock .done)
  | .transmit call =>
      if call.refused then .done
      else .lock (writeSteps ops call.frame fun _ => .unlock .done)

end

/-! ## The steps of a call and the call -/

/-- The routine does what the call does, and gives back the locks that it takes. -/
structure Performs {W : Type} (routine : Routine W) (call : Call W) : Prop where
  run : ∀ next self, (routine next).run self = (next (call self).1).run (call self).2
  closes : ∀ next depth, 0 < depth → (∀ ret, (next ret).Closes depth) →
    (routine next).Closes depth

theorem performs_chkSteps {W : Type} {routines : List (Routine W)} {calls : List (Call W)}
    (each : List.Forall₂ Performs routines calls) (result : Int) :
    Performs (chkSteps routines result) (chkWriteErr calls result) := by
  induction each generalizing result with
  | nil => exact ⟨fun _ _ => rfl, fun _ _ _ closes => closes result⟩
  | @cons routine call routines calls performs _ ih =>
      constructor
      · intro next self
        rw [chkSteps, performs.run, chkWriteErr]
        dsimp only
        split
        · rfl
        · exact (ih _).run next _
      · intro next depth inside closes
        apply performs.closes _ depth inside
        intro ret
        split
        · exact closes result
        · exact (ih _).closes next depth inside closes

theorem forall₂_performs {W α : Type} {steps : α → Routine W} {calls : α → Call W}
    (performs : ∀ item, Performs (steps item) (calls item)) (items : List α) :
    List.Forall₂ Performs (items.map steps) (items.map calls) := by
  rw [List.forall₂_map_left_iff, List.forall₂_map_right_iff, List.forall₂_same]
  exact fun item _ => performs item

section

variable (ops : CryptoTlsOps σ) (stack : σ → FormatBuf)

theorem performs_writeSteps (data : List UInt8) :
    Performs (writeSteps ops data) (TlsWriter.write ops data) where
  run _ _ := rfl
  closes _ _ inside closes := ⟨inside, fun _ => closes _⟩

theorem performs_vwritefSteps (text : List UInt8) :
    Performs (vwritefSteps ops stack text) (TlsWriter.vwritef ops stack text) where
  run next conn := by
    cases dead : conn.dead with
    | true => simp [vwritefSteps, Program.run, TlsWriter.vwritef, dead]
    | false => simp [vwritefSteps, Program.run, dead]
  closes next depth inside closes := by
    refine ⟨inside, fun conn => ?_⟩
    dsimp only
    split
    · exact closes (-1)
    · exact ⟨inside, Nat.succ_pos _, fun _ => ⟨depth, rfl, closes _⟩⟩

theorem performs_pieceSteps (piece : Piece) :
    Performs (pieceSteps ops stack piece) ((tlsWriter ops stack).call piece) := by
  cases piece with
  | write data => exact performs_writeSteps ops data
  | writef text | vwritef text => exact performs_vwritefSteps ops stack text

theorem performs_header (header : Header) :
    Performs (headerSteps ops stack header) (header.serialize (tlsWriter ops stack).toWriter) :=
  performs_chkSteps (forall₂_performs (performs_pieceSteps ops stack) header.pieces) 0

theorem performs_responseSteps (response : Response) :
    Performs (responseSteps ops stack response)
      (Response.serialize (tlsWriter ops stack).toWriter response) := by
  have line : Performs (responseLineSteps ops stack response.startLine)
      (response.startLine.serialize (tlsWriter ops stack).toWriter) :=
    performs_chkSteps (forall₂_performs (performs_pieceSteps ops stack) response.startLine.pieces) 0
  have headers := forall₂_performs (performs_header ops stack)
  have headerMap : Performs (headerMapSteps ops stack response.headerMap)
      (response.headerMap.serialize (tlsWriter ops stack).toWriter) :=
    performs_chkSteps (List.rel_append (headers response.headerMap.headers)
      (.cons (performs_writeSteps ops crlf) .nil)) 0
  refine performs_chkSteps (List.rel_append (List.rel_append (List.rel_append
    (.cons line .nil) (headers response.addedHeaders)) (.cons headerMap .nil)) ?_) 0
  split
  · exact .nil
  · exact .cons (performs_writeSteps ops response.body) .nil

theorem steps_section (use : WriterUse) : (use.steps ops stack).Section := by
  have ended (_ : Int) : (Program.unlock .done : Program (TlsConn σ)).Closes 1 := ⟨0, rfl, rfl⟩
  cases use with
  | respond response =>
      exact .locked _ ((performs_responseSteps ops stack response).closes _ 1 Nat.one_pos ended)
  | transmit call =>
      rw [WriterUse.steps]
      split
      · exact .skip
      · exact .locked _ ((performs_writeSteps ops call.frame).closes _ 1 Nat.one_pos ended)

theorem steps_run (use : WriterUse) (conn : TlsConn σ) :
    (use.steps ops stack).run conn = (use.run (tlsWriter ops stack).toWriter conn).2 := by
  cases use with
  | respond response => exact (performs_responseSteps ops stack response).run _ conn
  | transmit call =>
      rw [run_transmit, WriterUse.steps]
      split
      · rfl
      · rfl

variable {ι : Type} [DecidableEq ι] (uses : ι → List WriterUse)

theorem runOperations_uses (calls : List WriterUse) (conn : TlsConn σ) :
    runOperations (WriterUse.steps ops stack) calls conn =
      runUses (tlsWriter ops stack).toWriter calls conn := by
  induction calls generalizing conn with
  | nil => rfl
  | cons use calls ih =>
      rw [runOperations, List.foldl_cons, steps_run, ← runOperations, ih]
      rfl

/-- No schedule gets stuck, and where one leads, up to the call that holds the lock, the
calls lead one after the other. -/
theorem threads_serialised (conn : TlsConn σ) (schedule : List ι)
    (last : System ι (TlsConn σ))
    (ran : System.run schedule (System.start (WriterUse.steps ops stack) uses conn) = some last) :
    (∀ i, last.threads i ≠ .done → ∃ j next, last.step j = some next) ∧
      ∃ (performed : List (ι × WriterUse)) (left : ι → List WriterUse),
        (∀ i, uses i = ofThread i performed ++ left i) ∧
        last.settled = (runUses (tlsWriter ops stack).toWriter (performed.map Prod.snd) conn,
          fun i => Program.inTurn ((left i).map (WriterUse.steps ops stack))) := by
  have sections := steps_section ops stack
  obtain ⟨sound, _⟩ := System.run_settled (start_sound sections uses conn) ran
  refine ⟨fun i more => System.progress sound i more, ?_⟩
  obtain ⟨performed, left, split_, settled⟩ := scheduled sections ran
  exact ⟨performed, left, split_, by rw [settled, runOperations_uses]⟩

end

/-! ## What the client reads -/

def WriterUse.calls : WriterUse → List WriterCall
  | .respond response => [.serialize (.response response)]
  | .transmit call => if call.refused then [] else [.direct (.write call.frame)]

theorem runUses_calls {W : Type} (w : SdpWriter W) (uses : List WriterUse) (self : W) :
    runUses w.toWriter uses self = runCalls w (uses.flatMap WriterUse.calls) self := by
  induction uses generalizing self with
  | nil => rfl
  | cons use uses ih =>
      rw [runUses, List.foldl_cons, ← runUses, ih, List.flatMap_cons]
      cases use with
      | respond response => rfl
      | transmit call =>
          rw [run_transmit, WriterUse.calls]
          split <;> rfl

theorem fdWriter_neverFails : fdWriter.toWriter.NeverFails id where
  write_ret data fd := congrArg Prod.fst (fdWriter_call (.write data) fd)
  write_adds data fd := congrArg Prod.snd (fdWriter_call (.write data) fd)
  writef_ret _ _ := rfl
  writef_adds _ _ := rfl

theorem piecesBytes_calls (uses : List WriterUse) :
    piecesBytes ((uses.flatMap WriterUse.calls).flatMap WriterCall.pieces) = streamOf uses := by
  rw [← fdWriter_stream, ← runUses_calls]
  exact uses_written fdWriter_neverFails uses []

theorem version_short (version : RtspVersion) : version.bytes.length ≤ 12 := by
  have major := decimal_length (n := version.major.toNat) (e := 3) (by decide)
    (Nat.lt_trans version.major.toNat_lt (by decide))
  have minor := decimal_length (n := version.minor.toNat) (e := 3) (by decide)
    (Nat.lt_trans version.minor.toNat_lt (by decide))
  have slash : rtspSlash.length = 5 := rfl
  have dot : (charSlice ".").length = 1 := rfl
  rw [RtspVersion.bytes]
  simp only [List.length_append, slash, dot]
  omega

theorem header_fits (header : Header) : ∀ piece ∈ header.pieces, PieceFits piece := by
  simp [Header.pieces, PieceFits]

theorem response_fits (response : Response) :
    ∀ piece ∈ response.pieces ResponseLine.pieces, PieceFits piece := by
  have version := version_short response.startLine.version
  have code := decimal_length (n := response.startLine.code.toNat) (e := 5) (by decide)
    (Nat.lt_trans response.startLine.code.toNat_lt (by decide))
  have line : ∀ piece ∈ response.startLine.pieces, PieceFits piece := by
    simp only [ResponseLine.pieces, List.forall_mem_cons]
    exact ⟨Or.inl (by omega), trivial, Or.inl (by omega), trivial, trivial, trivial, nofun⟩
  intro piece member
  rw [Message.pieces] at member
  simp only [List.flatten_append, List.mem_append, List.mem_flatten, List.mem_map] at member
  rcases member with ((⟨_, own, inside⟩ | ⟨_, ⟨header, _, rfl⟩, inside⟩) | ⟨_, own, inside⟩) |
    ⟨_, own, inside⟩
  · rw [List.mem_singleton.mp own] at inside
    exact line piece inside
  · exact header_fits header piece inside
  · rw [List.mem_singleton.mp own, HeaderMap.pieces, List.mem_flatten] at inside
    obtain ⟨part, among, inside⟩ := inside
    rcases List.mem_append.mp among with ours | last
    · obtain ⟨header, _, rfl⟩ := List.mem_map.mp ours
      exact header_fits header piece inside
    · rw [List.mem_singleton.mp last, List.mem_singleton] at inside
      rw [inside]
      trivial
  · split at own
    · cases own
    · rw [List.mem_singleton.mp own, List.mem_singleton] at inside
      rw [inside]
      trivial

theorem uses_fit (uses : List WriterUse) :
    ∀ piece ∈ (uses.flatMap WriterUse.calls).flatMap WriterCall.pieces, PieceFits piece := by
  intro piece member
  obtain ⟨call, among, inside⟩ := List.mem_flatMap.mp member
  obtain ⟨use, _, own⟩ := List.mem_flatMap.mp among
  cases use with
  | respond response =>
      rw [List.mem_singleton.mp own] at inside
      exact response_fits response piece inside
  | transmit frame =>
      rw [WriterUse.calls] at own
      split at own
      · cases own
      · rw [List.mem_singleton.mp own] at inside
        rw [List.mem_singleton.mp inside]
        trivial

theorem uses_taken {ops : CryptoTlsOps σ} {taken : σ → Access (List UInt8)}
    (stack : σ → FormatBuf) (accepts : ops.AcceptsInFull taken) (cryptoConn : σ)
    (fresh : taken cryptoConn = .ok []) (uses : List WriterUse) :
    taken (runUses (tlsWriter ops stack).toWriter uses (TlsConn.accept cryptoConn)).cryptoConn =
      .ok (streamOf uses) := by
  obtain ⟨takes, ended⟩ := after_fits stack accepts _ (uses_fit uses) cryptoConn [] fresh
  rw [List.nil_append, piecesBytes_calls] at ended
  rw [runUses_calls, TlsConn.accept, runCalls_taken takes, ended]

theorem steps_done (ops : CryptoTlsOps σ) (stack : σ → FormatBuf) {use : WriterUse}
    (done : use.steps ops stack = .done) : use.item = none ∧ use.bytes = [] := by
  cases use with
  | respond response => cases done
  | transmit call =>
      rw [WriterUse.steps] at done
      split at done
      · rename_i refused
        exact ⟨by rw [WriterUse.item, if_pos refused], (call.of_refused refused).1⟩
      · cases done

theorem mem_ofThread {ι α : Type} [DecidableEq ι] {i : ι} {operation : α}
    {operations : List (ι × α)} : operation ∈ ofThread i operations ↔
      (i, operation) ∈ operations := by
  simp [ofThread]

/-- When all threads have come to their end, what each of them has sent is on the connection, in
its order and in one piece, and the client finds it there. -/
theorem threads_read {ι : Type} [DecidableEq ι] {ops : CryptoTlsOps σ}
    {taken : σ → Access (List UInt8)} (stack : σ → FormatBuf) (accepts : ops.AcceptsInFull taken)
    (cryptoConn : σ) (fresh : taken cryptoConn = .ok []) (uses : ι → List WriterUse)
    (readable : ∀ i, ∀ use ∈ uses i, use.Readable) (schedule : List ι)
    (last : System ι (TlsConn σ))
    (ran : System.run schedule
      (System.start (WriterUse.steps ops stack) uses (TlsConn.accept cryptoConn)) = some last)
    (finished : ∀ i, last.threads i = .done) (past : Option UInt8) :
    ∃ (out : List UInt8) (performed : List (ι × WriterUse)),
      taken last.shared.cryptoConn = .ok out ∧ out = streamOf (performed.map Prod.snd) ∧
      (∀ i, ofThread i performed <+: uses i ∧
        (ofThread i performed).filterMap WriterUse.item = (uses i).filterMap WriterUse.item) ∧
      (readAll (readItem past) () out.length out =
          .ok ((performed.map Prod.snd).filterMap WriterUse.item) ↔
        (NotCr out ∨ ∀ i, ∀ use ∈ uses i, use.isRespond = false)) := by
  have sections := steps_section ops stack
  obtain ⟨sound, _⟩ := System.run_settled (start_sound sections uses _) ran
  obtain ⟨_, performed, left, split_, settled⟩ := threads_serialised ops stack uses _ schedule last ran
  rw [System.settled_free (sound.free finished), Prod.mk.injEq] at settled
  obtain ⟨shared, threads⟩ := settled
  have rest (i : ι) : ∀ use ∈ left i, use.item = none ∧ use.isRespond = false := by
    intro use member
    have ended := Program.inTurn_done (fun program among => by
      obtain ⟨use, _, rfl⟩ := List.mem_map.mp among
      exact sections use) ((congrFun threads i).symm.trans (finished i))
    have done := ended _ (List.mem_map_of_mem member)
    refine ⟨(steps_done ops stack done).1, ?_⟩
    cases use with
    | respond response => cases done
    | transmit call => rfl
  have whole (i : ι) : (ofThread i performed).filterMap WriterUse.item =
      (uses i).filterMap WriterUse.item := by
    rw [split_ i, List.filterMap_append,
      List.filterMap_eq_nil_iff.mpr fun use member => (rest i use member).1, List.append_nil]
  have sent := uses_taken stack accepts cryptoConn fresh (performed.map Prod.snd)
  rw [← shared] at sent
  refine ⟨_, performed, sent, rfl, fun i => ⟨?_, whole i⟩, ?_⟩
  · rw [split_ i]
    exact List.prefix_append _ _
  · have read := readAll_uses past (performed.map Prod.snd) (fun use member => by
      obtain ⟨⟨i, _⟩, among, rfl⟩ := List.mem_map.mp member
      refine readable i _ ?_
      rw [split_ i]
      exact List.mem_append_left _ (mem_ofThread.mpr among)) _ (Nat.le_refl _)
    rw [read]
    refine or_congr_right ⟨fun none i use member => ?_, fun none use member => ?_⟩
    · rw [split_ i] at member
      rcases List.mem_append.mp member with ours | later
      · exact none use (List.mem_map.mpr ⟨(i, use), mem_ofThread.mp ours, rfl⟩)
      · exact (rest i use later).2
    · obtain ⟨⟨i, _⟩, among, rfl⟩ := List.mem_map.mp member
      refine none i _ ?_
      rw [split_ i]
      exact List.mem_append_left _ (mem_ofThread.mpr among)

def sampleThreads : Bool → List WriterUse
  | true => [.transmit sampleTransmit, .transmit sampleTransmit]
  | false => [.respond okResponse]

def sampleSchedule : List Bool :=
  List.replicate 3 true ++ List.replicate 24 false ++ List.replicate 3 true

def sampleRun : Option (System Bool (TlsConn (Access (List UInt8)))) :=
  System.run sampleSchedule
    (System.start (WriterUse.steps keepingOps zeroStack) sampleThreads (TlsConn.accept (.ok [])))

theorem sampleRun_ends : sampleRun.isSome = true := rfl

theorem sampleThreads_serialised :
    (∀ i, (sampleRun.get sampleRun_ends).threads i ≠ .done →
      ∃ j next, (sampleRun.get sampleRun_ends).step j = some next) ∧
    ∃ (performed : List (Bool × WriterUse)) (left : Bool → List WriterUse),
      (∀ i, sampleThreads i = ofThread i performed ++ left i) ∧
      (sampleRun.get sampleRun_ends).settled =
        (runUses (tlsWriter keepingOps zeroStack).toWriter (performed.map Prod.snd)
            (TlsConn.accept (.ok [])),
          fun i => Program.inTurn ((left i).map (WriterUse.steps keepingOps zeroStack))) :=
  threads_serialised keepingOps zeroStack sampleThreads _ sampleSchedule _
    (Option.some_get sampleRun_ends).symm

theorem sampleRun_notCr : (sampleRun.get sampleRun_ends).shared.cryptoConn.toOption.all
    (fun out => decide (NotCr out)) = true := by decide +kernel

theorem sampleThreads_readable : ∀ i, ∀ use ∈ sampleThreads i, use.Readable := by
  intro i use member
  cases i with
  | true =>
      rw [List.eq_of_mem_replicate (n := 2) member]
      exact sampleTransmit_readable
  | false =>
      rw [List.mem_singleton.mp member]
      exact okResponse_writable

theorem sampleThreads_read : ∃ (out : List UInt8) (performed : List (Bool × WriterUse)),
    (sampleRun.get sampleRun_ends).shared.cryptoConn = .ok out ∧
    out = streamOf (performed.map Prod.snd) ∧
    (∀ i, ofThread i performed <+: sampleThreads i ∧
      (ofThread i performed).filterMap WriterUse.item =
        (sampleThreads i).filterMap WriterUse.item) ∧
    readAll (readItem none) () out.length out =
      .ok ((performed.map Prod.snd).filterMap WriterUse.item) := by
  obtain ⟨out, performed, sent, stream, own, reads⟩ := threads_read zeroStack keepingOps_accepts
    (.ok []) rfl sampleThreads sampleThreads_readable sampleSchedule _
    (Option.some_get sampleRun_ends).symm (fun i => by cases i <;> rfl) none
  have sent : (sampleRun.get sampleRun_ends).shared.cryptoConn = .ok out := sent
  have last := sampleRun_notCr
  rw [sent] at last
  exact ⟨out, performed, sent, stream, own, reads.mpr (Or.inl (of_decide_eq_true last))⟩

end Compy.Connection
