import Compy.Srtp.ReplayRuns

/-!
# What the receive calls touch and what a rejection leaves behind

Two questions about a single call, for every context and every datagram: does
each access stay inside its array, and is everything as before when the answer
is -1.  SRTCP says yes to both.  SRTP copies before it knows the length to fit
`auth_input`, and moves its window before it knows the header length to fit the
packet.
-/

set_option autoImplicit false

namespace Compy.Srtp

open BigEndian CheckedBytes

def zeroMaster : SrtpKeyMaterial := ⟨Vector.replicate 16 0, Vector.replicate 14 0⟩

/-! ## Array bounds -/

/-- The accesses of the SRTP call stay inside their arrays exactly when the
datagram fits the scratch array or is rejected before it is copied. -/
theorem accesses_inside_iff (ops : CryptoSrtpOps) (ctx : SrtpRecvCtx) (datagram : Datagram) :
    ((∃ out, srtpRecvUnprotect ops ctx datagram.data datagram.len = .ok out) ↔
      datagram.len < 12 + ctx.authTagLen ∨
        replayCheck ctx (recvIndex ctx datagram.data) ≠ 0 ∨
        datagram.len ≤ srtpMaxPacketSize + ctx.authTagLen) ∧
      ∃ out, srtcpRecvUnprotect ops ctx datagram.data datagram.len = .ok out := by
  obtain ⟨data, len, held⟩ := datagram
  refine ⟨?_, ?_⟩
  · rcases srtpRecvUnprotect_returns ops ctx data len held with
      returned | ⟨outside, long, passed, oversize⟩
    · refine iff_of_true returned ?_
      by_contra refused
      rw [not_or, not_or, not_not] at refused
      obtain ⟨long, passed, oversize⟩ := refused
      dsimp only at long passed oversize
      obtain ⟨out, returned⟩ := returned
      rw [srtpRecvUnprotect_eq ops ctx data len held, if_neg long, if_neg (not_not.mpr passed),
        if_pos (by omega)] at returned
      contradiction
    · refine iff_of_false ?_ ?_
      · intro ⟨out, returned⟩
        rw [outside] at returned
        contradiction
      · intro stops
        dsimp only at stops
        rcases stops with short | replayed | fits
        · omega
        · exact replayed passed
        · omega
  · rcases srtcpRecvUnprotect_cases ops ctx data len held with
      ⟨returned, _⟩ | ⟨_, _, _, _, returned⟩
    · exact ⟨_, returned⟩
    · exact ⟨_, returned⟩

/-- One byte more than the sender would ever protect, on a new context. -/
theorem oversize_leaves_auth_input :
    srtpRecvUnprotect referenceOps (srtpRecvNew referenceOps .aesCm128HmacSha1_80 zeroMaster)
      (List.replicate 2059 0) 2059 = .error .outOfBounds := by
  rw [srtpRecvUnprotect_eq _ _ _ _ (Nat.le_of_eq List.length_replicate.symm),
    if_neg (by decide), if_neg (by simp [replayCheck, srtpRecvNew]), if_pos (by decide)]

/-! ## Rejections -/

theorem replayUpdate_ne (ctx : SrtpRecvCtx) (seq : UInt16) (v : UInt32)
    (passed : replayCheck ctx (v * 65536 + seq.toUInt32) = 0) : replayUpdate ctx seq v ≠ ctx := by
  intro same
  cases started : ctx.initialized with
  | false =>
      have flag := congrArg SrtpRecvCtx.initialized same
      simp [replayUpdate, started] at flag
  | true =>
      have empty : ctx.StartsEmpty := fun fresh => by
        rw [started] at fresh
        contradiction
      have acceptable := (replayCheck_iff ctx empty _).mp passed
      exact replayUpdate_moves ctx empty seq v acceptable (congrArg SrtpRecvCtx.srtpWindow same)

/-- An answer of -1 leaves context, bytes and length as they were, for SRTCP
always and for SRTP unless the packet is authentic and fresh and its CSRC list or
header extension overruns it. -/
theorem rejected_unchanged_iff (ops : CryptoSrtpOps) (ctx : SrtpRecvCtx) (datagram : Datagram) :
    (∀ out, srtpRecvUnprotect ops ctx datagram.data datagram.len = .ok out → out.ret = -1 →
      (out = ⟨ctx, -1, datagram.data, datagram.len⟩ ↔
        ¬ (12 + ctx.authTagLen ≤ datagram.len ∧
          replayCheck ctx (recvIndex ctx datagram.data) = 0 ∧
          SrtpTagOk ops ctx datagram.data datagram.len ∧
          srtpHeaderLen (datagram.data.take (datagram.len - ctx.authTagLen)) = none))) ∧
      ∀ out, srtcpRecvUnprotect ops ctx datagram.data datagram.len = .ok out → out.ret = -1 →
        out = ⟨ctx, -1, datagram.data, datagram.len⟩ := by
  obtain ⟨data, len, held⟩ := datagram
  refine ⟨?_, ?_⟩
  · intro out returned rejected
    rcases srtpRecvUnprotect_cases ops ctx data len held out returned with
      ⟨same, refused⟩ | ⟨long, genuine, passed, ⟨overrun, moved⟩ | ⟨_, _, accepted⟩⟩
    · refine iff_of_true same ?_
      intro ⟨long, passed, genuine, _⟩
      exact refused long genuine passed
    · refine iff_of_false ?_ (not_not.mpr ⟨long, passed, genuine, overrun⟩)
      intro same
      rw [moved] at same
      exact replayUpdate_ne ctx _ _ passed (congrArg RecvOutcome.ctx same)
    · rw [accepted] at rejected
      contradiction
  · intro out returned rejected
    rcases srtcpRecvUnprotect_cases ops ctx data len held with
      ⟨same, _⟩ | ⟨_, _, _, _, accepted⟩
    · rw [same] at returned
      exact (Except.ok.inj returned).symm
    · rw [accepted] at returned
      rw [← Except.ok.inj returned] at rejected
      contradiction

def missingCsrcs : List UInt8 := [0x8F, 96, 0, 1, 0, 0, 0, 0, 0, 0, 0, 1]

def missingCsrcsTag (ctx : SrtpRecvCtx) : List UInt8 :=
  (referenceOps.hmacSha1 ctx.srtpAuthKey (missingCsrcs ++ be32 0)).toList.take 10

/-- Authenticated with the session key it is answered with -1, and yet the
context has its first packet behind it. -/
theorem rejected_moves_window :
    ∃ out, srtpRecvUnprotect referenceOps
        (srtpRecvNew referenceOps .aesCm128HmacSha1_80 zeroMaster)
        (missingCsrcs ++ missingCsrcsTag (srtpRecvNew referenceOps .aesCm128HmacSha1_80 zeroMaster))
        22 = .ok out ∧
      out.ret = -1 ∧ out.ctx.initialized = true ∧ out.ctx.replayWindow = 1 ∧ out.ctx.sL = 1 := by
  set ctx := srtpRecvNew referenceOps .aesCm128HmacSha1_80 zeroMaster with new
  have tagLen : ctx.authTagLen.val = 10 := rfl
  have size : (missingCsrcsTag ctx).length = 10 := by simp [missingCsrcsTag]
  have body : (missingCsrcs ++ missingCsrcsTag ctx).take 12 = missingCsrcs :=
    List.take_left' rfl
  have tag : (missingCsrcs ++ missingCsrcsTag ctx).drop 12 = missingCsrcsTag ctx :=
    List.drop_left' rfl
  have seq : recvSeq (missingCsrcs ++ missingCsrcsTag ctx) = 1 := rfl
  have estimate : estimateRoc ctx 1 = (0, 1) := by simp [estimateRoc, new, srtpRecvNew]
  have genuine : SrtpTagOk referenceOps ctx (missingCsrcs ++ missingCsrcsTag ctx) 22 := by
    rw [SrtpTagOk, tagLen, body, tag, recvRoc, seq, estimate, List.take_of_length_le size.le]
    rfl
  have answer : srtpRecvUnprotect referenceOps ctx (missingCsrcs ++ missingCsrcsTag ctx) 22 =
      .ok ⟨replayUpdate ctx 1 0, -1, missingCsrcs ++ missingCsrcsTag ctx, 22⟩ := by
    rw [srtpRecvUnprotect_eq _ _ _ _ (by simp [size, missingCsrcs]), tagLen, if_neg (by decide),
      if_neg (by simp [replayCheck, new, srtpRecvNew]), if_neg (by decide),
      if_neg (not_not.mpr genuine), body, recvRoc, seq, estimate]
    rfl
  exact ⟨_, answer, rfl, rfl, rfl, rfl⟩

end Compy.Srtp
