import Compy.Tls.Conn

/-!
# Dead connections

What happens on a connection after an operation of the backend has failed.  A read or a
write that fails marks the connection, and a marked connection refuses reads and writes;
`compy_tls_shutdown` neither marks the connection nor looks at the mark.
-/

set_option autoImplicit false

namespace Compy.Tls

open Compy.Rtsp

variable {σ : Type}

inductive TlsCall where
  | read (len : Nat)
  | write (data : List UInt8)
  | writef (text : List UInt8)
  | vwritef (text : List UInt8)
  | shutdown
  deriving DecidableEq

def TlsCall.run (ops : CryptoTlsOps σ) (stack : σ → FormatBuf) : TlsCall → Call (TlsConn σ)
  | .read len => fun conn =>
      let ((ret, _), conn) := tlsRead ops len conn
      (ret, conn)
  | .write data => (tlsWriter ops stack).write data
  | .writef text => (tlsWriter ops stack).writef text
  | .vwritef text => (tlsWriter ops stack).vwritef text
  | .shutdown => tlsShutdown ops

/-- The backend that also keeps what each of its operations has returned. -/
def CryptoTlsOps.logged (ops : CryptoTlsOps σ) : CryptoTlsOps (σ × List Int) where
  read len := fun (conn, log) =>
    let ((ret, buf), conn) := ops.read len conn
    ((ret, buf), conn, log ++ [ret])
  write span := fun (conn, log) =>
    let (ret, conn) := ops.write span conn
    (ret, conn, log ++ [ret])
  shutdown := fun (conn, log) =>
    let (ret, conn) := ops.shutdown conn
    (ret, conn, log ++ [ret])

/-- A call, what the operations of the backend under it have returned, and what it has
returned itself. -/
structure Entry where
  call : TlsCall
  results : List Int
  ret : Int

def enter (ops : CryptoTlsOps σ) (stack : σ → FormatBuf) (call : TlsCall) (conn : TlsConn σ) :
    Entry × TlsConn σ :=
  let (ret, next) := call.run ops.logged (fun logged => stack logged.1)
    { cryptoConn := (conn.cryptoConn, []), dead := conn.dead }
  ({ call, results := next.cryptoConn.2, ret },
    { cryptoConn := next.cryptoConn.1, dead := next.dead })

def trace (ops : CryptoTlsOps σ) (stack : σ → FormatBuf) : List TlsCall → TlsConn σ → List Entry
  | [], _ => []
  | call :: calls, conn =>
      let (entry, conn) := enter ops stack call conn
      entry :: trace ops stack calls conn

def Entry.Failed (self : Entry) : Prop := ∃ result ∈ self.results, result < 0

/-- No operation of the backend is performed, and the caller is told. -/
def Entry.Quiet (self : Entry) : Prop := self.results = [] ∧ self.ret < 0

/-- Once an operation of the backend has failed, the same call performs no other one and
every later call is quiet. -/
def StaysSilent (entries : List Entry) : Prop :=
  (∀ entry ∈ entries, ∀ result ∈ entry.results.dropLast, 0 ≤ result) ∧
    entries.Pairwise fun earlier later => earlier.Failed → later.Quiet

def TlsCall.Unformattable : TlsCall → Prop
  | .writef text | .vwritef text => Tls.Unformattable text
  | _ => False

/-- A later call that the mark, where there is one, keeps quiet. -/
def Guarded (earlier later : Entry) : Prop :=
  later.call ≠ .shutdown ∧ (earlier.call = .shutdown → later.call.Unformattable)

/-! ## One call -/

section

variable (ops : CryptoTlsOps σ) (stack : σ → FormatBuf) (call : TlsCall) (cryptoConn : σ)

theorem logged_write (span : Span) (log : List Int) :
    ops.logged.write span (cryptoConn, log) =
      ((ops.write span cryptoConn).1, (ops.write span cryptoConn).2,
        log ++ [(ops.write span cryptoConn).1]) := rfl

@[simp] theorem enter_call (conn : TlsConn σ) : (enter ops stack call conn).1.call = call := rfl

theorem enter_dead :
    (enter ops stack call ⟨cryptoConn, true⟩).2.dead = true ∧
      ((enter ops stack call ⟨cryptoConn, true⟩).1.Quiet ↔ call ≠ .shutdown) := by
  cases call <;>
    simp [enter, TlsCall.run, tlsRead, tlsShutdown, tlsWriter, TlsWriter.write, TlsWriter.writef,
      TlsWriter.vwritef, CryptoTlsOps.logged, Entry.Quiet]

theorem enter_vwritef_alive (text : List UInt8) :
    ((enter ops stack (.vwritef text) ⟨cryptoConn, false⟩).1.Quiet ↔ Unformattable text) ∧
      ((enter ops stack (.vwritef text) ⟨cryptoConn, false⟩).2.dead = true ↔
        (enter ops stack (.vwritef text) ⟨cryptoConn, false⟩).1.Failed) ∧
      (enter ops stack (.vwritef text) ⟨cryptoConn, false⟩).1.results.length ≤ 1 := by
  rcases vwritef_alive ops.logged (fun logged => stack logged.1) (cryptoConn, []) text with
    ⟨long, same⟩ | ⟨rfl, same⟩ | ⟨short, _, same⟩
  · simp [enter, TlsCall.run, tlsWriter, same, Entry.Quiet, Entry.Failed, long]
  · have short : ¬ Unformattable [] := by decide
    simp [enter, TlsCall.run, tlsWriter, same, Entry.Quiet, Entry.Failed, short]
  · rw [logged_write] at same
    by_cases failed : (ops.write ⟨(vsnprintf (stack cryptoConn).toList text).2, text.length⟩
        cryptoConn).1 < 0
    · simp [enter, TlsCall.run, tlsWriter, same, failed, Entry.Quiet, Entry.Failed, short]
    · simp [enter, TlsCall.run, tlsWriter, same, failed, Entry.Quiet, Entry.Failed, short]

/-- Without the mark the quiet calls are the formatted writes that have no result; the mark
is set by the calls in which the backend fails, but for a shutdown. -/
theorem enter_alive :
    ((enter ops stack call ⟨cryptoConn, false⟩).1.Quiet ↔ call.Unformattable) ∧
      ((enter ops stack call ⟨cryptoConn, false⟩).2.dead = true ↔
        (enter ops stack call ⟨cryptoConn, false⟩).1.Failed ∧ call ≠ .shutdown) := by
  cases call with
  | read len => simp [enter, TlsCall.run, tlsRead, CryptoTlsOps.logged, Entry.Quiet, Entry.Failed,
      TlsCall.Unformattable]
  | write data => simp [enter, TlsCall.run, tlsWriter, TlsWriter.write, CryptoTlsOps.logged,
      Entry.Quiet, Entry.Failed, TlsCall.Unformattable]
  | writef text =>
      obtain ⟨quiet, marked, _⟩ := enter_vwritef_alive ops stack cryptoConn text
      exact ⟨quiet, marked.trans (by simp [enter, TlsCall.run, tlsWriter, TlsWriter.writef,
        Entry.Failed])⟩
  | vwritef text =>
      obtain ⟨quiet, marked, _⟩ := enter_vwritef_alive ops stack cryptoConn text
      exact ⟨quiet, marked.trans (by simp)⟩
  | shutdown => simp [enter, TlsCall.run, tlsShutdown, CryptoTlsOps.logged, Entry.Quiet,
      TlsCall.Unformattable]

theorem enter_once (conn : TlsConn σ) : (enter ops stack call conn).1.results.length ≤ 1 := by
  obtain ⟨cryptoConn, dead⟩ := conn
  cases dead with
  | true =>
      cases call <;>
        simp [enter, TlsCall.run, tlsRead, tlsShutdown, tlsWriter, TlsWriter.write,
          TlsWriter.writef, TlsWriter.vwritef, CryptoTlsOps.logged]
  | false =>
      have formatted (text : List UInt8) := (enter_vwritef_alive ops stack cryptoConn text).2.2
      cases call with
      | writef text => exact formatted text
      | vwritef text => exact formatted text
      | read len => simp [enter, TlsCall.run, tlsRead, CryptoTlsOps.logged]
      | write data => simp [enter, TlsCall.run, tlsWriter, TlsWriter.write, CryptoTlsOps.logged]
      | shutdown => simp [enter, TlsCall.run, tlsShutdown, CryptoTlsOps.logged]

theorem enter_unformattable (unformattable : call.Unformattable) :
    (enter ops stack call ⟨cryptoConn, false⟩).2 = ⟨cryptoConn, false⟩ := by
  cases call with
  | writef text =>
      have same := vwritef_unformattable ops.logged (fun logged => stack logged.1)
        (cryptoConn, []) unformattable
      simp [enter, TlsCall.run, tlsWriter, TlsWriter.writef, same]
  | vwritef text =>
      have same := vwritef_unformattable ops.logged (fun logged => stack logged.1)
        (cryptoConn, []) unformattable
      simp [enter, TlsCall.run, tlsWriter, same]
  | read | write | shutdown => contradiction

end

/-! ## Sequences of calls -/

variable (ops : CryptoTlsOps σ) (stack : σ → FormatBuf)

theorem trace_cons (call : TlsCall) (calls : List TlsCall) (conn : TlsConn σ) :
    trace ops stack (call :: calls) conn =
      (enter ops stack call conn).1 :: trace ops stack calls (enter ops stack call conn).2 := rfl

theorem trace_once (calls : List TlsCall) (conn : TlsConn σ) :
    ∀ entry ∈ trace ops stack calls conn, ∀ result ∈ entry.results.dropLast, 0 ≤ result := by
  induction calls generalizing conn with
  | nil => simp [trace]
  | cons call calls ih =>
      intro entry member
      rw [trace_cons] at member
      rcases List.mem_cons.mp member with rfl | member
      · intro result early
        have once := enter_once ops stack call conn
        have size := List.length_pos_of_mem early
        rw [List.length_dropLast] at size
        omega
      · exact ih _ entry member

theorem trace_dead (calls : List TlsCall) (cryptoConn : σ) :
    ∀ entry ∈ trace ops stack calls ⟨cryptoConn, true⟩, entry.Quiet ↔ entry.call ≠ .shutdown := by
  induction calls generalizing cryptoConn with
  | nil => simp [trace]
  | cons call calls ih =>
      obtain ⟨marked, quiet⟩ := enter_dead ops stack call cryptoConn
      intro entry member
      rw [trace_cons] at member
      rcases List.mem_cons.mp member with rfl | member
      · exact quiet
      · rw [← marked] at ih
        exact ih _ entry member

/-- As long as nothing but formatted writes without a result follows, all calls are quiet. -/
theorem trace_unmarked (calls : List TlsCall) (cryptoConn : σ) :
    (∀ entry ∈ trace ops stack calls ⟨cryptoConn, false⟩, entry.Quiet) ↔
      ∀ entry ∈ trace ops stack calls ⟨cryptoConn, false⟩, entry.call.Unformattable := by
  induction calls with
  | nil => simp [trace]
  | cons call calls ih =>
      obtain ⟨quiet, _⟩ := enter_alive ops stack call cryptoConn
      rw [trace_cons, List.forall_mem_cons, List.forall_mem_cons, quiet, enter_call]
      apply and_congr_right
      intro unformattable
      rw [enter_unformattable ops stack call cryptoConn unformattable]
      exact ih

theorem Entry.Quiet.not_failed {entry : Entry} (quiet : entry.Quiet) : ¬ entry.Failed := by
  rintro ⟨result, member, _⟩
  rw [quiet.1] at member
  contradiction

theorem TlsCall.Unformattable.not_shutdown {call : TlsCall} (unformattable : call.Unformattable) :
    call ≠ .shutdown := by
  rintro rfl
  exact unformattable

theorem guarded_after_shutdown {earlier later : Entry} (shutdown : earlier.call = .shutdown) :
    Guarded earlier later ↔ later.call.Unformattable := by
  rw [Guarded, forall_prop_of_true shutdown]
  exact and_iff_right_of_imp TlsCall.Unformattable.not_shutdown

theorem guarded_after {earlier later : Entry} (other : earlier.call ≠ .shutdown) :
    Guarded earlier later ↔ later.call ≠ .shutdown :=
  and_iff_left (fun shutdown => absurd shutdown other)

theorem pairwise_of_quiet {R : Entry → Entry → Prop} {entries : List Entry}
    (quiet : ∀ entry ∈ entries, entry.Quiet) :
    entries.Pairwise fun earlier later => earlier.Failed → R earlier later :=
  List.pairwise_of_forall_mem_list
    fun entry member _ _ failed => absurd failed (quiet entry member).not_failed

theorem pairwise_guarded_iff (calls : List TlsCall) (cryptoConn : σ) :
    (trace ops stack calls ⟨cryptoConn, false⟩).Pairwise
        (fun earlier later => earlier.Failed → later.Quiet) ↔
      (trace ops stack calls ⟨cryptoConn, false⟩).Pairwise
        (fun earlier later => earlier.Failed → Guarded earlier later) := by
  induction calls generalizing cryptoConn with
  | nil => simp [trace]
  | cons call calls ih =>
      obtain ⟨_, marked⟩ := enter_alive ops stack call cryptoConn
      rw [trace_cons, List.pairwise_cons, List.pairwise_cons]
      have named := enter_call ops stack call ⟨cryptoConn, false⟩
      generalize (enter ops stack call ⟨cryptoConn, false⟩).1 = entry at marked named ⊢
      generalize (enter ops stack call ⟨cryptoConn, false⟩).2 = next at marked ⊢
      obtain ⟨next, dead⟩ := next
      dsimp only at marked
      by_cases failed : entry.Failed
      · simp only [failed, forall_true_left]
        by_cases shutdown : call = .shutdown
        · have unmarked : dead = false := by simpa [shutdown] using marked
          simp only [guarded_after_shutdown (named.trans shutdown), unmarked]
          exact and_congr (trace_unmarked ops stack calls next) (ih next)
        · have dies : dead = true := marked.mpr ⟨failed, shutdown⟩
          simp only [guarded_after (named.symm ▸ shutdown), dies]
          have same : (∀ later ∈ trace ops stack calls ⟨next, true⟩, later.Quiet) ↔
              ∀ later ∈ trace ops stack calls ⟨next, true⟩, later.call ≠ .shutdown :=
            forall₂_congr (trace_dead ops stack calls next)
          rw [← same]
          apply and_congr_right
          intro quiet
          exact iff_of_true (pairwise_of_quiet quiet) (pairwise_of_quiet quiet)
      · have unmarked : dead = false := by simpa [failed] using marked
        simp only [failed, false_implies, implies_true, true_and, unmarked]
        exact ih next

theorem staysSilent_iff (calls : List TlsCall) (cryptoConn : σ) :
    StaysSilent (trace ops stack calls (TlsConn.accept cryptoConn)) ↔
      (trace ops stack calls (TlsConn.accept cryptoConn)).Pairwise
        fun earlier later => earlier.Failed → Guarded earlier later := by
  rw [StaysSilent, and_iff_right (trace_once ops stack calls _)]
  exact pairwise_guarded_iff ops stack calls cryptoConn

def brokenOps : CryptoTlsOps Unit where
  read _ := fun conn => ((-1, []), conn)
  write _ := fun conn => (-1, conn)
  shutdown := fun conn => (-1, conn)

/-- A write has failed, and a shutdown goes to the backend behind it. -/
theorem shutdown_not_silent :
    trace brokenOps (fun _ => Vector.replicate 1024 0) [.write [1], .shutdown]
        (TlsConn.accept ()) =
      [⟨.write [1], [-1], -1⟩, ⟨.shutdown, [-1], -1⟩] ∧
    ¬ StaysSilent (trace brokenOps (fun _ => Vector.replicate 1024 0) [.write [1], .shutdown]
      (TlsConn.accept ())) := by
  have ran : trace brokenOps (fun _ => Vector.replicate 1024 0) [.write [1], .shutdown]
      (TlsConn.accept ()) = [⟨.write [1], [-1], -1⟩, ⟨.shutdown, [-1], -1⟩] := rfl
  refine ⟨ran, ?_⟩
  rw [ran, StaysSilent]
  simp [Entry.Failed, Entry.Quiet]

end Compy.Tls
