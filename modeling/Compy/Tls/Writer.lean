import Compy.Rtsp.WriterCalls
import Compy.Tcp.FdWriter
import Compy.Tls.Conn

/-!
# The TLS writer beside the plain one

The same calls on a TLS writer whose backend takes all it is given and on a descriptor that
does.  The two streams part where a formatted text does not fit the buffer of the TLS
writer: the backend is told to read the whole length of the text from it.
-/

set_option autoImplicit false

namespace Compy.Tls

open CheckedBytes Compy.Rtsp

variable {σ : Type}

/-- `FdWriter` over a descriptor that takes each write in full. -/
def fdWriter : SdpWriter (List UInt8) where
  write data fd := ((Tcp.FdWriter.write [.accepts data.length] data fd).map Prod.swap).getD (-1, fd)
  writef text fd := (text.length, fd ++ text)
  vwritef text fd := (text.length, fd ++ text)

theorem fdWriter_call (piece : Piece) (fd : List UInt8) :
    fdWriter.call piece fd = ((piece.bytes.length : Int), fd ++ piece.bytes) := by
  cases piece with
  | write data =>
      cases data with
      | nil =>
          simp [SdpWriter.call, fdWriter, Tcp.FdWriter.write, Tcp.FdWriter.writeLoop, Piece.bytes]
      | cons first rest =>
          have none : rest.drop (rest.length + 1) = [] := by simp
          have all : rest.take (rest.length + 1) = rest := List.take_of_length_le (by omega)
          simp [SdpWriter.call, fdWriter, Tcp.FdWriter.write, Tcp.FdWriter.writeLoop, Piece.bytes,
            none, all]
  | writef text | vwritef text => rfl

theorem fdWriter_after (pieces : List Piece) (fd : List UInt8) :
    fdWriter.TakesAll pieces fd ∧ fdWriter.after pieces fd = fd ++ piecesBytes pieces := by
  induction pieces generalizing fd with
  | nil => simp [SdpWriter.TakesAll, SdpWriter.after]
  | cons piece pieces ih =>
      obtain ⟨takes, ended⟩ := ih (fd ++ piece.bytes)
      rw [SdpWriter.TakesAll, SdpWriter.after, fdWriter_call]
      refine ⟨⟨Int.natCast_nonneg _, takes⟩, ?_⟩
      rw [ended, piecesBytes_cons, List.append_assoc]

theorem fdWriter_stream (calls : List WriterCall) :
    runCalls fdWriter calls [] = piecesBytes (calls.flatMap WriterCall.pieces) := by
  obtain ⟨takes, ended⟩ := fdWriter_after (calls.flatMap WriterCall.pieces) []
  rw [runCalls_taken takes, ended, List.nil_append]

/-! ## What the backend is given -/

/-- A backend that takes each write in full; `taken` is what it has read from the memory
that it was given. -/
structure CryptoTlsOps.AcceptsInFull (ops : CryptoTlsOps σ) (taken : σ → Access (List UInt8)) :
    Prop where
  ret : ∀ span conn, (ops.write span conn).1 = span.len
  takes : ∀ span conn, taken (ops.write span conn).2 = do
    let before ← taken conn
    let bytes ← span.bytes
    pure (before ++ bytes)

/-- The text fits the buffer, or ends with a zero where the buffer does. -/
def FitsBuf (text : List UInt8) : Prop :=
  text.length < 1024 ∨ text.length = 1024 ∧ text[1023]? = some 0

def PieceFits : Piece → Prop
  | .write _ => True
  | .writef text | .vwritef text => FitsBuf text

/-- What the backend reads of a formatted text. -/
def formatted (buf : FormatBuf) (text : List UInt8) : Access (List UInt8) :=
  if Unformattable text then .ok []
  else readBytes (vsnprintf buf.toList text).2 0 text.length

def pieceSent (buf : FormatBuf) : Piece → Access (List UInt8)
  | .write data => .ok data
  | .writef text | .vwritef text => formatted buf text

/-- Within the buffer are the front of the text and a zero; behind it the read fails. -/
theorem formatted_eq (buf : FormatBuf) (text : List UInt8) :
    formatted buf text =
      if Unformattable text then .ok []
      else if text.length ≤ 1024 then .ok ((text.take 1023 ++ [0]).take text.length)
      else .error .outOfBounds := by
  have size : (vsnprintf buf.toList text).2.length = 1024 := by
    simp [vsnprintf]
    omega
  rw [formatted, readBytes, size, Nat.zero_add]
  split
  · rfl
  · split
    · rename_i inside
      have stored : text.length ≤ (text.take 1023 ++ [0]).length := by
        rw [List.length_append, List.length_take, List.length_singleton]
        omega
      rw [List.drop_zero, vsnprintf]
      simp only [Vector.length_toList, Nat.add_one_sub_one]
      rw [List.take_append_of_le_length stored]
    · rfl

theorem take_append_zero {text : List UInt8} (size : text.length = 1024) :
    text.take 1023 ++ [0] = text ↔ text[1023]? = some 0 := by
  have whole := List.take_append_drop 1023 text
  have inside : 1023 < text.length := by omega
  rw [List.drop_eq_getElem_cons inside, List.drop_eq_nil_of_le (by omega)] at whole
  rw [List.getElem?_eq_getElem inside, Option.some.injEq]
  constructor
  · intro same
    have last := List.append_cancel_left (same.trans whole.symm)
    exact (List.singleton_inj.mp last).symm
  · intro zero
    rw [zero] at whole
    exact whole

theorem formatted_fits (buf : FormatBuf) {text : List UInt8} (fits : FitsBuf text) :
    formatted buf text = .ok text := by
  have short : ¬ Unformattable text := by
    rw [Unformattable]
    rcases fits with _ | _ <;> omega
  rw [formatted_eq, if_neg short]
  rcases fits with small | ⟨full, zero⟩
  · have all : text.take 1023 = text := List.take_of_length_le (by omega)
    rw [if_pos (by omega), all, List.take_left]
  · rw [if_pos (by omega), (take_append_zero full).mpr zero, List.take_length]

theorem formatted_ok {buf : FormatBuf} {text sent : List UInt8}
    (read : formatted buf text = .ok sent) :
    sent.length ≤ text.length ∧ (sent = text → FitsBuf text) := by
  rw [formatted_eq] at read
  split at read
  · rename_i long
    cases read
    refine ⟨Nat.zero_le _, ?_⟩
    intro empty
    rw [← empty] at long
    contradiction
  · split at read
    · rename_i inside
      cases read
      refine ⟨List.length_take_le _ _, ?_⟩
      intro same
      rcases Nat.lt_or_eq_of_le inside with small | full
      · exact .inl small
      · right
        rw [List.take_of_length_le (by simp [full])] at same
        exact ⟨full, (take_append_zero full).mp same⟩
    · contradiction

theorem pieceSent_fits (buf : FormatBuf) {piece : Piece} (fits : PieceFits piece) :
    pieceSent buf piece = .ok piece.bytes := by
  cases piece with
  | write data => rfl
  | writef text | vwritef text => exact formatted_fits buf fits

theorem pieceSent_ok {buf : FormatBuf} {piece : Piece} {sent : List UInt8}
    (read : pieceSent buf piece = .ok sent) :
    sent.length ≤ piece.bytes.length ∧ (sent = piece.bytes → PieceFits piece) := by
  cases piece with
  | write data =>
      cases read
      exact ⟨Nat.le_refl _, fun _ => trivial⟩
  | writef text | vwritef text => exact formatted_ok read

/-! ## One piece -/

section

variable {ops : CryptoTlsOps σ} {taken : σ → Access (List UInt8)} (stack : σ → FormatBuf)

theorem vwritef_taken (accepts : ops.AcceptsInFull taken) (text : List UInt8) (cryptoConn : σ) :
    ∃ next, (TlsWriter.vwritef ops stack text ⟨cryptoConn, false⟩).2 = ⟨next, false⟩ ∧
      (taken next = do
        let before ← taken cryptoConn
        let sent ← formatted (stack cryptoConn) text
        pure (before ++ sent)) ∧
      (FitsBuf text → 0 ≤ (TlsWriter.vwritef ops stack text ⟨cryptoConn, false⟩).1) := by
  rcases vwritef_alive ops stack cryptoConn text with
    ⟨long, same⟩ | ⟨rfl, same⟩ | ⟨short, _, same⟩
  · refine ⟨cryptoConn, by rw [same], ?_, ?_⟩
    · rw [formatted, if_pos long]
      cases taken cryptoConn <;> simp
    · intro fits
      rw [Unformattable] at long
      rcases fits with _ | _ <;> omega
  · refine ⟨cryptoConn, by rw [same], ?_, ?_⟩
    · rw [formatted_fits (stack cryptoConn) (.inl (by decide))]
      cases taken cryptoConn <;> simp
    · intro _
      rw [same]
  · have ret := accepts.ret ⟨(vsnprintf (stack cryptoConn).toList text).2, text.length⟩ cryptoConn
    have takes := accepts.takes ⟨(vsnprintf (stack cryptoConn).toList text).2, text.length⟩
      cryptoConn
    simp only [ret, Int.not_lt.mpr (Int.natCast_nonneg _), if_false] at same
    refine ⟨_, by rw [same], ?_, ?_⟩
    · rw [takes, formatted, if_neg short]
      rfl
    · intro _
      rw [same]
      exact Int.natCast_nonneg _

theorem call_taken (accepts : ops.AcceptsInFull taken) (piece : Piece) (cryptoConn : σ) :
    ∃ next, ((tlsWriter ops stack).call piece ⟨cryptoConn, false⟩).2 = ⟨next, false⟩ ∧
      (taken next = do
        let before ← taken cryptoConn
        let sent ← pieceSent (stack cryptoConn) piece
        pure (before ++ sent)) ∧
      (PieceFits piece → 0 ≤ ((tlsWriter ops stack).call piece ⟨cryptoConn, false⟩).1) := by
  cases piece with
  | writef text => exact vwritef_taken stack accepts text cryptoConn
  | vwritef text => exact vwritef_taken stack accepts text cryptoConn
  | write data =>
      have ret := accepts.ret ⟨data, data.length⟩ cryptoConn
      have takes := accepts.takes ⟨data, data.length⟩ cryptoConn
      have whole : (⟨data, data.length⟩ : Span).bytes = .ok data := by
        rw [Span.bytes, readBytes_ok _ _ _ (by simp)]
        simp
      refine ⟨(ops.write ⟨data, data.length⟩ cryptoConn).2, ?_, ?_, ?_⟩
      · simp [SdpWriter.call, tlsWriter, TlsWriter.write, ret]
      · rw [takes, whole]
        rfl
      · intro _
        simp [SdpWriter.call, tlsWriter, TlsWriter.write, ret]

/-! ## Runs -/

theorem after_error (accepts : ops.AcceptsInFull taken) (pieces : List Piece) (cryptoConn : σ)
    (fault : Fault) (start : taken cryptoConn = .error fault) :
    taken ((tlsWriter ops stack).after pieces ⟨cryptoConn, false⟩).cryptoConn = .error fault := by
  induction pieces generalizing cryptoConn with
  | nil => exact start
  | cons piece pieces ih =>
      obtain ⟨next, reached, takes, _⟩ := call_taken stack accepts piece cryptoConn
      rw [SdpWriter.after, reached]
      rw [start, error_bind] at takes
      exact ih next takes

theorem after_taken (accepts : ops.AcceptsInFull taken) (pieces : List Piece) (cryptoConn : σ)
    (before out : List UInt8) (start : taken cryptoConn = .ok before)
    (ended : taken ((tlsWriter ops stack).after pieces ⟨cryptoConn, false⟩).cryptoConn = .ok out) :
    ∃ sent, out = before ++ sent.flatten ∧
      List.Forall₂ (fun piece sent =>
        sent.length ≤ piece.bytes.length ∧ (sent = piece.bytes → PieceFits piece)) pieces sent := by
  induction pieces generalizing cryptoConn before with
  | nil =>
      rw [SdpWriter.after, start] at ended
      cases ended
      exact ⟨[], by simp, .nil⟩
  | cons piece pieces ih =>
      obtain ⟨next, reached, takes, _⟩ := call_taken stack accepts piece cryptoConn
      rw [SdpWriter.after, reached] at ended
      rw [start, ok_bind] at takes
      cases read : pieceSent (stack cryptoConn) piece with
      | error fault =>
          rw [read, error_bind] at takes
          rw [after_error stack accepts pieces next fault takes] at ended
          contradiction
      | ok sent =>
          rw [read, ok_bind] at takes
          obtain ⟨others, whole, each⟩ := ih next _ takes ended
          refine ⟨sent :: others, ?_, .cons (pieceSent_ok read) each⟩
          rw [whole, List.flatten_cons, List.append_assoc]

theorem after_fits (accepts : ops.AcceptsInFull taken) (pieces : List Piece)
    (fits : ∀ piece ∈ pieces, PieceFits piece) (cryptoConn : σ) (before : List UInt8)
    (start : taken cryptoConn = .ok before) :
    (tlsWriter ops stack).TakesAll pieces ⟨cryptoConn, false⟩ ∧
      taken ((tlsWriter ops stack).after pieces ⟨cryptoConn, false⟩).cryptoConn =
        .ok (before ++ piecesBytes pieces) := by
  induction pieces generalizing cryptoConn before with
  | nil => exact ⟨trivial, by rw [SdpWriter.after, start]; simp⟩
  | cons piece pieces ih =>
      obtain ⟨here, later⟩ := List.forall_mem_cons.mp fits
      obtain ⟨next, reached, takes, counted⟩ := call_taken stack accepts piece cryptoConn
      rw [start, pieceSent_fits _ here] at takes
      obtain ⟨all, ended⟩ := ih later next _ takes
      rw [SdpWriter.TakesAll, SdpWriter.after, reached]
      refine ⟨⟨counted here, all⟩, ?_⟩
      rw [ended, piecesBytes_cons, List.append_assoc]

end

theorem fits_of_sent {called pieces : List Piece} (part : called.Sublist pieces)
    {sent : List (List UInt8)}
    (each : List.Forall₂ (fun piece sent =>
      sent.length ≤ piece.bytes.length ∧ (sent = piece.bytes → PieceFits piece)) called sent) :
    sent.flatten.length ≤ (piecesBytes pieces).length ∧
      (sent.flatten = piecesBytes pieces → ∀ piece ∈ pieces, PieceFits piece) := by
  induction part generalizing sent with
  | slnil =>
      cases each
      simp
  | @cons called pieces piece part ih =>
      obtain ⟨shorter, fits⟩ := ih each
      rw [piecesBytes_cons, List.length_append]
      refine ⟨by omega, ?_⟩
      intro same
      have size := congrArg List.length same
      rw [List.length_append] at size
      have empty : piece.bytes = [] := List.eq_nil_of_length_eq_zero (by omega)
      rw [empty, List.nil_append] at same
      rw [List.forall_mem_cons]
      refine ⟨?_, fits same⟩
      cases piece with
      | write data => trivial
      | writef text | vwritef text =>
          left
          rw [show text = [] from empty]
          decide
  | @cons_cons called pieces piece part ih =>
      cases each with
      | @cons _ first _ sent here each =>
          obtain ⟨shorter, fits⟩ := ih each
          rw [piecesBytes_cons, List.flatten_cons, List.length_append, List.length_append]
          refine ⟨by omega, ?_⟩
          intro same
          have size := congrArg List.length same
          rw [List.length_append, List.length_append] at size
          obtain ⟨whole, rest⟩ := List.append_inj same (by omega)
          rw [List.forall_mem_cons]
          exact ⟨here.2 whole, fits rest⟩

theorem tls_stream_iff {ops : CryptoTlsOps σ} {taken : σ → Access (List UInt8)}
    (stack : σ → FormatBuf) (accepts : ops.AcceptsInFull taken) (cryptoConn : σ)
    (fresh : taken cryptoConn = .ok []) (calls : List WriterCall) :
    (taken (runCalls (tlsWriter ops stack) calls (TlsConn.accept cryptoConn)).cryptoConn =
        .ok (runCalls fdWriter calls []) ∧
      runCalls fdWriter calls [] = piecesBytes (calls.flatMap WriterCall.pieces)) ↔
      ∀ call ∈ calls, ∀ piece ∈ call.pieces, PieceFits piece := by
  have plain := fdWriter_stream calls
  have all : (∀ call ∈ calls, ∀ piece ∈ call.pieces, PieceFits piece) ↔
      ∀ piece ∈ calls.flatMap WriterCall.pieces, PieceFits piece := List.forall_mem_flatMap.symm
  rw [and_iff_left plain, plain, all]
  constructor
  · intro same
    obtain ⟨called, part, ended, _⟩ := runCalls_pieces (tlsWriter ops stack) calls
      (TlsConn.accept cryptoConn)
    rw [ended] at same
    obtain ⟨sent, whole, each⟩ := after_taken stack accepts called cryptoConn [] _ fresh same
    exact (fits_of_sent part each).2 whole.symm
  · intro fits
    obtain ⟨takes, ended⟩ := after_fits stack accepts _ fits cryptoConn [] fresh
    rw [TlsConn.accept, runCalls_taken takes]
    exact ended

def keepingOps : CryptoTlsOps (Access (List UInt8)) where
  read _ := fun conn => ((0, []), conn)
  write span := fun conn => (span.len, do
    let before ← conn
    let bytes ← span.bytes
    pure (before ++ bytes))
  shutdown := fun conn => (0, conn)

theorem keepingOps_accepts : keepingOps.AcceptsInFull id := ⟨fun _ _ => rfl, fun _ _ => rfl⟩

def zeroStack : Access (List UInt8) → FormatBuf := fun _ => Vector.replicate 1024 0

/-- A session name that fits. -/
theorem session_stream :
    runCalls fdWriter [.serialize (.sdpPrintf 115 [72, 105])] [] = [115, 61, 72, 105, 13, 10] ∧
      (runCalls (tlsWriter keepingOps zeroStack) [.serialize (.sdpPrintf 115 [72, 105])]
        (TlsConn.accept (.ok []))).cryptoConn =
          .ok (runCalls fdWriter [.serialize (.sdpPrintf 115 [72, 105])] []) := by
  refine ⟨rfl, ?_⟩
  refine ((tls_stream_iff zeroStack keepingOps_accepts (.ok []) rfl
    [.serialize (.sdpPrintf 115 [72, 105])]).mpr ?_).1
  simp [WriterCall.pieces, Output.pieces, PieceFits, FitsBuf, charSlice]

def longAttribute : WriterCall := .serialize (.sdpPrintf 97 (List.replicate 1025 97))

set_option maxRecDepth 20000 in
/-- The backend reads one byte behind the buffer. -/
theorem longAttribute_overread :
    (runCalls (tlsWriter keepingOps zeroStack) [longAttribute]
        (TlsConn.accept (.ok []))).cryptoConn = .error .outOfBounds ∧
      (runCalls (tlsWriter keepingOps zeroStack) [longAttribute]
        (TlsConn.accept (.ok []))).cryptoConn ≠ .ok (runCalls fdWriter [longAttribute] []) := by
  have overread : (runCalls (tlsWriter keepingOps zeroStack) [longAttribute]
      (TlsConn.accept (.ok []))).cryptoConn = .error .outOfBounds := rfl
  refine ⟨overread, ?_⟩
  rw [overread]
  simp

end Compy.Tls
