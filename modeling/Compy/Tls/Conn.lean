import Compy.Library.CheckedBytes
import Compy.Rtsp.Sdp

/-!
# TLS connections

`tls.c`: a connection of the TLS backend with the flag that is set on a fatal error, and
the writer over it.  A formatted write goes through a buffer of 1024 bytes on the stack;
the backend is given its address and the length that `vsnprintf` returns.
-/

set_option autoImplicit false

namespace Compy.Tls

open CheckedBytes Compy.Rtsp

/-- An address and a length; `memory` is what can be read from the address on. -/
structure Span where
  memory : List UInt8
  len : Nat

def Span.bytes (self : Span) : Access (List UInt8) := readBytes self.memory 0 self.len

/-- The operations of a backend with connections `σ`.  A read also gives what it has put
into the buffer. -/
structure CryptoTlsOps (σ : Type) where
  read : (len : Nat) → σ → (Int × List UInt8) × σ
  write : Span → σ → Int × σ
  shutdown : σ → Int × σ

structure TlsConn (σ : Type) where
  cryptoConn : σ
  dead : Bool

variable {σ : Type}

/-- The connection that `Compy_TlsConn_accept` gives. -/
def TlsConn.accept (cryptoConn : σ) : TlsConn σ := { cryptoConn, dead := false }

def tlsRead (ops : CryptoTlsOps σ) (len : Nat) (conn : TlsConn σ) :
    (Int × List UInt8) × TlsConn σ :=
  if conn.dead then ((-1, []), conn)
  else
    let ((ret, buf), cryptoConn) := ops.read len conn.cryptoConn
    ((ret, buf), { cryptoConn, dead := decide (ret < 0) })

def tlsShutdown (ops : CryptoTlsOps σ) (conn : TlsConn σ) : Int × TlsConn σ :=
  let (ret, cryptoConn) := ops.shutdown conn.cryptoConn
  (ret, { conn with cryptoConn })

/-! ## The writer -/

abbrev FormatBuf := Vector UInt8 1024

/-- The text is cut at the end of the buffer and ended with a zero; what is returned is the
length of all of it, or an error where no `int` holds that. -/
def vsnprintf (buf text : List UInt8) : Int × List UInt8 :=
  let stored := text.take (buf.length - 1) ++ [0]
  (if text.length < 2 ^ 31 then text.length else -1, stored ++ buf.drop stored.length)

def TlsWriter.write (ops : CryptoTlsOps σ) (data : List UInt8) : Call (TlsConn σ) := fun self =>
  if self.dead then (-1, self)
  else
    let (ret, cryptoConn) := ops.write ⟨data, data.length⟩ self.cryptoConn
    (ret, { cryptoConn, dead := decide (ret < 0) })

/-- `stack` is what the buffer holds before the call. -/
def TlsWriter.vwritef (ops : CryptoTlsOps σ) (stack : σ → FormatBuf) (text : List UInt8) :
    Call (TlsConn σ) := fun self =>
  if self.dead then (-1, self)
  else
    let (n, buf) := vsnprintf (stack self.cryptoConn).toList text
    if 0 < n then
      let (ret, cryptoConn) := ops.write ⟨buf, n.toNat⟩ self.cryptoConn
      if ret < 0 then (-1, { cryptoConn, dead := true }) else (n, { self with cryptoConn })
    else (n, self)

/-- The body of `TlsWriter_vwritef` again, around `va_start` and `va_end`. -/
def TlsWriter.writef (ops : CryptoTlsOps σ) (stack : σ → FormatBuf) (text : List UInt8) :
    Call (TlsConn σ) := TlsWriter.vwritef ops stack text

def tlsWriter (ops : CryptoTlsOps σ) (stack : σ → FormatBuf) : SdpWriter (TlsConn σ) where
  write := TlsWriter.write ops
  writef := TlsWriter.writef ops stack
  vwritef := TlsWriter.vwritef ops stack

/-! ## What the formatted text becomes -/

def Unformattable (text : List UInt8) : Prop := 2 ^ 31 ≤ text.length

instance (text : List UInt8) : Decidable (Unformattable text) :=
  inferInstanceAs (Decidable (2 ^ 31 ≤ text.length))

theorem vsnprintf_unformattable (buf : List UInt8) {text : List UInt8}
    (unformattable : Unformattable text) : (vsnprintf buf text).1 = -1 :=
  if_neg (Nat.not_lt.mpr unformattable)

theorem vsnprintf_formattable (buf : List UInt8) {text : List UInt8}
    (formattable : ¬ Unformattable text) : (vsnprintf buf text).1 = text.length :=
  if_pos (Nat.not_le.mp formattable)

theorem vwritef_unformattable (ops : CryptoTlsOps σ) (stack : σ → FormatBuf) (cryptoConn : σ)
    {text : List UInt8} (unformattable : Unformattable text) :
    TlsWriter.vwritef ops stack text ⟨cryptoConn, false⟩ = (-1, ⟨cryptoConn, false⟩) := by
  have returned := vsnprintf_unformattable (stack cryptoConn).toList unformattable
  simp [TlsWriter.vwritef, returned]

theorem vwritef_alive (ops : CryptoTlsOps σ) (stack : σ → FormatBuf) (cryptoConn : σ)
    (text : List UInt8) :
    (Unformattable text ∧
        TlsWriter.vwritef ops stack text ⟨cryptoConn, false⟩ = (-1, ⟨cryptoConn, false⟩)) ∨
      (text = [] ∧
        TlsWriter.vwritef ops stack text ⟨cryptoConn, false⟩ = (0, ⟨cryptoConn, false⟩)) ∨
      (¬ Unformattable text ∧ text ≠ [] ∧
        TlsWriter.vwritef ops stack text ⟨cryptoConn, false⟩ =
          let (ret, next) := ops.write
            ⟨(vsnprintf (stack cryptoConn).toList text).2, text.length⟩ cryptoConn
          if ret < 0 then (-1, ⟨next, true⟩) else (text.length, ⟨next, false⟩)) := by
  by_cases unformattable : Unformattable text
  · left
    exact ⟨unformattable, vwritef_unformattable ops stack cryptoConn unformattable⟩
  · right
    have returned := vsnprintf_formattable (stack cryptoConn).toList unformattable
    rcases text.eq_nil_or_concat with empty | nonempty
    · left
      refine ⟨empty, ?_⟩
      subst empty
      rw [List.length_nil] at returned
      simp [TlsWriter.vwritef, returned]
    · right
      have present : text ≠ [] := by
        obtain ⟨front, last, whole⟩ := nonempty
        simp [whole]
      refine ⟨unformattable, present, ?_⟩
      have positive : 0 < text.length := List.length_pos_iff.mpr present
      simp [TlsWriter.vwritef, returned, positive]

end Compy.Tls
