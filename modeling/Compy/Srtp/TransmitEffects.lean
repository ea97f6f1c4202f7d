import Compy.Srtp.Transport

/-!
# What a refused transmit leaves behind

`Compy_SrtpTransport_transmit` looks at the size of the packet, then moves the rollover
counter, and then looks at the CSRC list and the extension.  A packet refused there has
moved the counter that the packets behind it are encrypted with.
-/

set_option autoImplicit false

namespace Compy.Srtp

open Compy.Rtp

/-- Tracking a sequence number leaves no trace exactly when it is the one before. -/
theorem SrtpTransport.trackSeq_unchanged_iff (self : SrtpTransport) (seq : UInt16) :
    ((self.trackSeq seq).roc = self.roc ∧ (self.trackSeq seq).prevSeq = self.prevSeq) ↔
      seq = self.prevSeq := by
  constructor
  · intro unchanged
    exact unchanged.2
  · intro same
    have notBefore : ¬ seq < self.prevSeq := by
      rw [same]
      exact UInt16.lt_irrefl _
    constructor
    · simp [SrtpTransport.trackSeq, notBefore]
    · exact same

/-- The packet passes the two size checks and its header overruns it. -/
def SrtpTransport.HeaderOverruns (self : SrtpTransport) (packet : List UInt8) : Prop :=
  12 ≤ packet.length ∧ packet.length + self.authTagLen ≤ srtpMaxPacketSize ∧
    srtpHeaderLen packet = none

theorem refused_unchanged_iff (ops : CryptoSrtpOps) (innerRet : Int) (self : SrtpTransport)
    (bufs : IoVecSlice) :
    (∀ next, SrtpTransport.transmit ops innerRet self bufs = ((next, none), -1) →
        next.roc = self.roc ∧ next.prevSeq = self.prevSeq) ↔
      ¬ (self.HeaderOverruns bufs.flatten ∧ packetSeq bufs.flatten ≠ self.prevSeq) := by
  rw [not_and_not_right]
  rcases SrtpTransport.transmit_cases ops innerRet self bufs with
    ⟨sized, refused⟩ | ⟨fits, long, ⟨overrun, refused⟩ | ⟨headerLen, found, handed⟩⟩
  · apply iff_of_true
    · intro next stopped
      rw [refused] at stopped
      cases stopped
      exact ⟨rfl, rfl⟩
    · intro overruns
      obtain ⟨long, fits, _⟩ := overruns
      omega
  · have overruns : self.HeaderOverruns bufs.flatten := ⟨long, fits, overrun⟩
    rw [← SrtpTransport.trackSeq_unchanged_iff, refused]
    constructor
    · intro unchanged _
      exact unchanged _ rfl
    · intro tracked next stopped
      cases stopped
      exact tracked overruns
  · apply iff_of_true
    · intro next stopped
      rw [handed] at stopped
      simp at stopped
    · intro overruns
      obtain ⟨_, _, overrun⟩ := overruns
      rw [found] at overrun
      contradiction

/-- Fifteen CSRCs announced and none there, right behind the sequence number 65535. -/
theorem overrun_moves_roc :
    ∃ next, SrtpTransport.transmit referenceOps 0
        { transportSrtp referenceOps .aesCm128HmacSha1_80
            ⟨Vector.replicate 16 0, Vector.replicate 14 0⟩ with prevSeq := 65535 }
        [[0x8F, 96, 0, 0, 0, 0, 0, 0, 0, 0, 0, 1]] = ((next, none), -1) ∧
      next.roc = 1 ∧ next.prevSeq = 0 := ⟨_, rfl, rfl, rfl⟩

end Compy.Srtp
