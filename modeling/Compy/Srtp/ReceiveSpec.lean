import Compy.Library.ConstantTime
import Compy.Srtp.Receive

/-!
# What one unprotect call does

For each of the two calls, one equation that lists all its outcomes without the
checked accesses.  Safety, the order of effects, the replay window and the
round trips are all read off these two equations.
-/

set_option autoImplicit false

namespace Compy.Srtp

open BigEndian CheckedBytes ConstantTime

/-! ## Reads of a few bytes -/

theorem tagDiff_ok (expectedTag : Vector UInt8 20) (data : List UInt8) (offset count : Nat)
    (short : count ≤ 20) (inside : offset + count ≤ data.length) :
    ∃ diff, tagDiff expectedTag data offset count = .ok diff ∧
      (diff = 0 ↔ (data.drop offset).take count = expectedTag.toList.take count) := by
  refine ⟨(List.zipWith (· ^^^ ·) ((expectedTag.toList.drop 0).take count)
    ((data.drop offset).take count)).foldl (· ||| ·) 0, ?_, ?_⟩
  · rw [tagDiff, readBytes_ok _ _ _ (by rw [Vector.length_toList]; omega),
      readBytes_ok _ _ _ inside]
    rfl
  · rw [foldl_or_eq_zero, zipWith_xor_zero]
    · simp [eq_comm]
    · simp only [List.drop_zero, List.length_take, List.length_drop, Vector.length_toList]
      omega

theorem recvHeaderLen_ok (data : List UInt8) (encryptedLen : Nat)
    (header : 12 ≤ encryptedLen) (inside : encryptedLen ≤ data.length) :
    recvHeaderLen data encryptedLen = .ok (srtpHeaderLen (data.take encryptedLen)) := by
  have size : (data.take encryptedLen).length = encryptedLen := by
    rw [List.length_take]
    omega
  have first : (data.take encryptedLen).getD 0 0 = ((data.drop 0).take 1).getD 0 0 := by
    simp only [List.getD_eq_getElem?_getD, List.getElem?_take, List.drop_zero]
    rw [if_pos (by omega), if_pos (by omega)]
  simp only [recvHeaderLen, srtpHeaderLen, size, first]
  rw [readBytes_ok _ _ _ (by omega)]
  change (if _ then _ else _) = _
  generalize ((data.drop 0).take 1).getD 0 0 = byte
  by_cases long : encryptedLen < 12 + (byte &&& 0x0F).toNat * 4
  · rw [if_pos long, if_pos long]
    rfl
  · rw [if_neg long, if_neg long]
    by_cases extended : byte &&& 0x10 ≠ 0 ∧ 12 + (byte &&& 0x0F).toNat * 4 + 4 ≤ encryptedLen
    · have words : word16 ((data.take encryptedLen).drop (12 + (byte &&& 0x0F).toNat * 4 + 2)) =
          word16 ((data.drop (12 + (byte &&& 0x0F).toNat * 4 + 2)).take 2) := by
        rw [List.drop_take, word16_take _ _ (by omega), word16_take _ _ (by omega)]
      rw [if_pos extended, if_pos extended, readBytes_ok _ _ _ (by omega), words]
      change (if _ then _ else _) = _
      split <;> rfl
    · rw [if_neg extended, if_neg extended]
      rfl

theorem srtpHeaderLen_bounds (packet : List UInt8) (headerLen : Nat)
    (found : srtpHeaderLen packet = some headerLen) :
    12 ≤ headerLen ∧ headerLen ≤ packet.length := by
  simp only [srtpHeaderLen] at found
  split at found
  · contradiction
  · split at found
    · split at found
      · contradiction
      · cases found
        omega
    · cases found
      omega

theorem srtpAuthInput_eq (data : List UInt8) (encryptedLen : Nat) (v : UInt32)
    (inside : encryptedLen ≤ data.length) :
    srtpAuthInput data encryptedLen v =
      if encryptedLen ≤ srtpMaxPacketSize then .ok (data.take encryptedLen ++ be32 v)
      else .error .outOfBounds := by
  have size : (data.take encryptedLen).length = encryptedLen := by
    rw [List.length_take]
    omega
  have fill := write_write_read (List.replicate (srtpMaxPacketSize + 4) 0)
    (data.take encryptedLen) (be32 v)
  rw [size, length_be32, List.length_replicate] at fill
  rw [srtpAuthInput, readBytes_ok _ _ _ (by omega), List.drop_zero, ok_bind, fill]
  split
  · rw [if_pos (by omega)]
  · rw [if_neg (by omega)]

theorem decryptInPlace_ok (ops : CryptoSrtpOps) (key : Key) (salt : Salt) (ssrc index : UInt32)
    (data : List UInt8) (offset count : Nat) (inside : offset + count ≤ data.length) :
    decryptInPlace ops key salt ssrc index data offset count =
      .ok (data.take offset ++ srtpEncryptPayload ops key salt ssrc index
        ((data.drop offset).take count) ++ data.drop (offset + count)) := by
  have size : (srtpEncryptPayload ops key salt ssrc index
      ((data.drop offset).take count)).length = count := by
    rw [srtpEncryptPayload, ops.length_aes128Ctr, List.length_take, List.length_drop]
    omega
  rw [decryptInPlace, readBytes_ok _ _ _ inside]
  change writeBytes data offset _ = _
  rw [writeBytes_ok _ _ _ (by omega), size]

/-! ## SRTP -/

def recvSeq (data : List UInt8) : UInt16 := word16 (data.drop 2)

/-- The estimated ROC and the 32-bit index a datagram has in a context. -/
def recvRoc (ctx : SrtpRecvCtx) (data : List UInt8) : UInt32 := (estimateRoc ctx (recvSeq data)).1

def recvIndex (ctx : SrtpRecvCtx) (data : List UInt8) : UInt32 :=
  (estimateRoc ctx (recvSeq data)).2

/-- The MAC check: the tag at the end is that of the rest and the ROC. -/
def SrtpTagOk (ops : CryptoSrtpOps) (ctx : SrtpRecvCtx) (data : List UInt8) (len : Nat) : Prop :=
  (data.drop (len - ctx.authTagLen)).take ctx.authTagLen =
    (ops.hmacSha1 ctx.srtpAuthKey
      (data.take (len - ctx.authTagLen) ++ be32 (recvRoc ctx data))).toList.take ctx.authTagLen

instance (ops : CryptoSrtpOps) (ctx : SrtpRecvCtx) (data : List UInt8) (len : Nat) :
    Decidable (SrtpTagOk ops ctx data len) := inferInstanceAs (Decidable (_ = _))

def srtpDecrypted (ops : CryptoSrtpOps) (ctx : SrtpRecvCtx) (data : List UInt8)
    (encryptedLen headerLen : Nat) : List UInt8 :=
  data.take headerLen ++ srtpEncryptPayload ops ctx.srtpKey ctx.srtpSalt
    (word32 (data.drop 8)) (recvIndex ctx data)
    ((data.drop headerLen).take (encryptedLen - headerLen)) ++ data.drop encryptedLen

theorem replayUpdate_frame (ctx : SrtpRecvCtx) (seq : UInt16) (v : UInt32) :
    ∃ roc sL initialized replayWindow, replayUpdate ctx seq v =
      { ctx with roc, sL, initialized, replayWindow } := by
  unfold replayUpdate
  dsimp only
  split
  · exact ⟨_, _, _, _, rfl⟩
  · split
    · exact ⟨_, _, _, _, rfl⟩
    · exact ⟨_, _, _, _, rfl⟩

/-- What no call changes: the session keys and the tag length. -/
structure SrtpSession where
  srtpKey : Key
  srtpSalt : Salt
  srtpAuthKey : AuthKey
  srtcpKey : Key
  srtcpSalt : Salt
  srtcpAuthKey : AuthKey
  authTagLen : AuthTagLen

def SrtpRecvCtx.session (ctx : SrtpRecvCtx) : SrtpSession :=
  ⟨ctx.srtpKey, ctx.srtpSalt, ctx.srtpAuthKey, ctx.srtcpKey, ctx.srtcpSalt, ctx.srtcpAuthKey,
    ctx.authTagLen⟩

theorem replayUpdate_session (ctx : SrtpRecvCtx) (seq : UInt16) (v : UInt32) :
    (replayUpdate ctx seq v).session = ctx.session := by
  obtain ⟨_, _, _, _, same⟩ := replayUpdate_frame ctx seq v
  rw [same]
  rfl

theorem srtpRecvUnprotect_eq (ops : CryptoSrtpOps) (ctx : SrtpRecvCtx) (data : List UInt8)
    (len : Nat) (held : len ≤ data.length) :
    srtpRecvUnprotect ops ctx data len =
      if len < 12 + ctx.authTagLen then .ok ⟨ctx, -1, data, len⟩
      else if replayCheck ctx (recvIndex ctx data) ≠ 0 then .ok ⟨ctx, -1, data, len⟩
      else if srtpMaxPacketSize + ctx.authTagLen < len then .error .outOfBounds
      else if ¬ SrtpTagOk ops ctx data len then .ok ⟨ctx, -1, data, len⟩
      else match srtpHeaderLen (data.take (len - ctx.authTagLen)) with
        | none => .ok ⟨replayUpdate ctx (recvSeq data) (recvRoc ctx data), -1, data, len⟩
        | some headerLen =>
            .ok ⟨replayUpdate ctx (recvSeq data) (recvRoc ctx data), 0,
              srtpDecrypted ops ctx data (len - ctx.authTagLen) headerLen,
              len - ctx.authTagLen⟩ := by
  have tag := ctx.authTagLen.bounds
  unfold srtpRecvUnprotect
  by_cases short : len < 12 + ctx.authTagLen
  · rw [if_pos short, if_pos short]
    rfl
  have seqRead : word16 ((data.drop 2).take 2) = recvSeq data := word16_take _ _ (by omega)
  have ssrcRead : word32 ((data.drop 8).take 4) = word32 (data.drop 8) :=
    word32_take _ _ (by omega)
  rw [if_neg short, if_neg short, readBytes_ok data 8 4 (by omega), ok_bind,
    readBytes_ok data 2 2 (by omega), ok_bind, seqRead, ssrcRead]
  dsimp only
  change (if replayCheck ctx (recvIndex ctx data) ≠ 0 then _ else _) = _
  by_cases replayed : replayCheck ctx (recvIndex ctx data) ≠ 0
  · rw [if_pos replayed, if_pos replayed]
    rfl
  rw [if_neg replayed, if_neg replayed]
  change (srtpAuthInput data (len - ctx.authTagLen) (recvRoc ctx data) >>= _) = _
  rw [srtpAuthInput_eq _ _ _ (by omega)]
  by_cases oversize : srtpMaxPacketSize + ctx.authTagLen < len
  · rw [if_neg (by omega), if_pos oversize, error_bind]
  rw [if_pos (by omega), if_neg oversize, ok_bind]
  obtain ⟨diff, compared, equal⟩ := tagDiff_ok (ops.hmacSha1 ctx.srtpAuthKey
    (data.take (len - ctx.authTagLen) ++ be32 (recvRoc ctx data))) data
    (len - ctx.authTagLen) ctx.authTagLen (by omega) (by omega)
  rw [compared, ok_bind]
  have checked : diff ≠ 0 ↔ ¬ SrtpTagOk ops ctx data len := not_congr equal
  by_cases forged : ¬ SrtpTagOk ops ctx data len
  · rw [if_pos (checked.mpr forged), if_pos forged]
    rfl
  rw [if_neg (fun bad => forged (checked.mp bad)), if_neg forged,
    recvHeaderLen_ok _ _ (by omega) (by omega), ok_bind]
  cases found : srtpHeaderLen (data.take (len - ctx.authTagLen)) with
  | none => rfl
  | some headerLen =>
      have bounds := srtpHeaderLen_bounds _ _ found
      rw [List.length_take] at bounds
      have session := replayUpdate_session ctx (recvSeq data) (estimateRoc ctx (recvSeq data)).1
      have key := congrArg SrtpSession.srtpKey session
      have salt := congrArg SrtpSession.srtpSalt session
      simp only [SrtpRecvCtx.session] at key salt
      dsimp only
      rw [key, salt, decryptInPlace_ok _ _ _ _ _ _ _ _ (by omega), ok_bind,
        show headerLen + (len - ctx.authTagLen - headerLen) = len - ctx.authTagLen by omega]
      rfl

/-- A call that returns has either left everything as it was or admitted the
index, and then only the header length decides what it answers. -/
theorem srtpRecvUnprotect_cases (ops : CryptoSrtpOps) (ctx : SrtpRecvCtx) (data : List UInt8)
    (len : Nat) (held : len ≤ data.length) (out : RecvOutcome)
    (returned : srtpRecvUnprotect ops ctx data len = .ok out) :
    out = ⟨ctx, -1, data, len⟩ ∧
        (12 + ctx.authTagLen ≤ len → SrtpTagOk ops ctx data len →
          replayCheck ctx (recvIndex ctx data) ≠ 0) ∨
      12 + ctx.authTagLen ≤ len ∧ SrtpTagOk ops ctx data len ∧
        replayCheck ctx (recvIndex ctx data) = 0 ∧
        (srtpHeaderLen (data.take (len - ctx.authTagLen)) = none ∧
            out = ⟨replayUpdate ctx (recvSeq data) (recvRoc ctx data), -1, data, len⟩ ∨
          ∃ headerLen, srtpHeaderLen (data.take (len - ctx.authTagLen)) = some headerLen ∧
            out = ⟨replayUpdate ctx (recvSeq data) (recvRoc ctx data), 0,
              srtpDecrypted ops ctx data (len - ctx.authTagLen) headerLen,
              len - ctx.authTagLen⟩) := by
  rw [srtpRecvUnprotect_eq ops ctx data len held] at returned
  by_cases short : len < 12 + ctx.authTagLen
  · rw [if_pos short] at returned
    exact Or.inl ⟨(Except.ok.inj returned).symm, fun long => absurd long (by omega)⟩
  rw [if_neg short] at returned
  by_cases replayed : replayCheck ctx (recvIndex ctx data) ≠ 0
  · rw [if_pos replayed] at returned
    exact Or.inl ⟨(Except.ok.inj returned).symm, fun _ _ => replayed⟩
  rw [if_neg replayed] at returned
  by_cases oversize : srtpMaxPacketSize + ctx.authTagLen < len
  · rw [if_pos oversize] at returned
    contradiction
  rw [if_neg oversize] at returned
  by_cases forged : ¬ SrtpTagOk ops ctx data len
  · rw [if_pos forged] at returned
    exact Or.inl ⟨(Except.ok.inj returned).symm, fun _ genuine => absurd genuine forged⟩
  rw [if_neg forged] at returned
  refine Or.inr ⟨by omega, not_not.mp forged, not_not.mp replayed, ?_⟩
  cases found : srtpHeaderLen (data.take (len - ctx.authTagLen)) with
  | none =>
      rw [found] at returned
      exact Or.inl ⟨rfl, (Except.ok.inj returned).symm⟩
  | some headerLen =>
      rw [found] at returned
      exact Or.inr ⟨headerLen, rfl, (Except.ok.inj returned).symm⟩

theorem srtpRecvUnprotect_refused (ops : CryptoSrtpOps) (ctx : SrtpRecvCtx) (data : List UInt8)
    (len : Nat) (held : len ≤ data.length) (refused : replayCheck ctx (recvIndex ctx data) ≠ 0) :
    srtpRecvUnprotect ops ctx data len = .ok ⟨ctx, -1, data, len⟩ := by
  rw [srtpRecvUnprotect_eq ops ctx data len held]
  by_cases short : len < 12 + ctx.authTagLen
  · rw [if_pos short]
  · rw [if_neg short, if_pos refused]

theorem srtpRecvUnprotect_returns (ops : CryptoSrtpOps) (ctx : SrtpRecvCtx) (data : List UInt8)
    (len : Nat) (held : len ≤ data.length) :
    (∃ out, srtpRecvUnprotect ops ctx data len = .ok out) ∨
      srtpRecvUnprotect ops ctx data len = .error .outOfBounds ∧
        12 + ctx.authTagLen ≤ len ∧ replayCheck ctx (recvIndex ctx data) = 0 ∧
        srtpMaxPacketSize + ctx.authTagLen < len := by
  rw [srtpRecvUnprotect_eq ops ctx data len held]
  by_cases short : len < 12 + ctx.authTagLen
  · exact Or.inl ⟨_, if_pos short⟩
  rw [if_neg short]
  by_cases replayed : replayCheck ctx (recvIndex ctx data) ≠ 0
  · exact Or.inl ⟨_, if_pos replayed⟩
  rw [if_neg replayed]
  by_cases oversize : srtpMaxPacketSize + ctx.authTagLen < len
  · exact Or.inr ⟨if_pos oversize, by omega, not_not.mp replayed, oversize⟩
  rw [if_neg oversize]
  by_cases forged : ¬ SrtpTagOk ops ctx data len
  · exact Or.inl ⟨_, if_pos forged⟩
  rw [if_neg forged]
  cases srtpHeaderLen (data.take (len - ctx.authTagLen)) with
  | none => exact Or.inl ⟨_, rfl⟩
  | some headerLen => exact Or.inl ⟨_, rfl⟩

theorem srtpRecvUnprotect_session (ops : CryptoSrtpOps) (ctx : SrtpRecvCtx) (data : List UInt8)
    (len : Nat) (held : len ≤ data.length) (out : RecvOutcome)
    (returned : srtpRecvUnprotect ops ctx data len = .ok out) :
    out.ctx.session = ctx.session := by
  rcases srtpRecvUnprotect_cases ops ctx data len held out returned with
    ⟨same, _⟩ | ⟨_, _, _, ⟨_, same⟩ | ⟨_, _, same⟩⟩
  · rw [same]
  · rw [same]
    exact replayUpdate_session _ _ _
  · rw [same]
    exact replayUpdate_session _ _ _

/-! ## SRTCP -/

def recvSrtcpWord (ctx : SrtpRecvCtx) (data : List UInt8) (len : Nat) : UInt32 :=
  word32 (data.drop (len - ctx.authTagLen - 4))

def recvSrtcpIndex (ctx : SrtpRecvCtx) (data : List UInt8) (len : Nat) : UInt32 :=
  recvSrtcpWord ctx data len &&& 0x7FFFFFFF

def SrtcpTagOk (ops : CryptoSrtpOps) (ctx : SrtpRecvCtx) (data : List UInt8) (len : Nat) :
    Prop :=
  (data.drop (len - ctx.authTagLen)).take ctx.authTagLen =
    (ops.hmacSha1 ctx.srtcpAuthKey (data.take (len - ctx.authTagLen))).toList.take ctx.authTagLen

instance (ops : CryptoSrtpOps) (ctx : SrtpRecvCtx) (data : List UInt8) (len : Nat) :
    Decidable (SrtcpTagOk ops ctx data len) := inferInstanceAs (Decidable (_ = _))

def srtcpDecrypted (ops : CryptoSrtpOps) (ctx : SrtpRecvCtx) (data : List UInt8)
    (len : Nat) : List UInt8 :=
  let indexStart := len - ctx.authTagLen - 4
  if recvSrtcpWord ctx data len &&& 0x80000000 ≠ 0 then
    data.take 8 ++ srtpEncryptPayload ops ctx.srtcpKey ctx.srtcpSalt (word32 (data.drop 4))
      (recvSrtcpIndex ctx data len) ((data.drop 8).take (indexStart - 8)) ++ data.drop indexStart
  else data

theorem srtcpReplayStep_frame (ctx moved : SrtpRecvCtx) (index : UInt32)
    (accepted : srtcpReplayStep ctx index = some moved) :
    ∃ srtcpHighestIndex srtcpReplayWindow,
      moved = { ctx with srtcpHighestIndex, srtcpReplayWindow } := by
  simp only [srtcpReplayStep] at accepted
  split at accepted
  · exact ⟨_, _, (Option.some.inj accepted).symm⟩
  · split at accepted
    · contradiction
    · split at accepted
      · contradiction
      · exact ⟨_, _, (Option.some.inj accepted).symm⟩

theorem srtcpRecvUnprotect_eq (ops : CryptoSrtpOps) (ctx : SrtpRecvCtx) (data : List UInt8)
    (len : Nat) (held : len ≤ data.length) :
    srtcpRecvUnprotect ops ctx data len =
      if len < 12 + ctx.authTagLen then .ok ⟨ctx, -1, data, len⟩
      else if ¬ SrtcpTagOk ops ctx data len then .ok ⟨ctx, -1, data, len⟩
      else match srtcpReplayStep ctx (recvSrtcpIndex ctx data len) with
        | none => .ok ⟨ctx, -1, data, len⟩
        | some moved =>
            .ok ⟨moved, 0, srtcpDecrypted ops ctx data len, len - ctx.authTagLen - 4⟩ := by
  have tag := ctx.authTagLen.bounds
  unfold srtcpRecvUnprotect
  by_cases short : len < 12 + ctx.authTagLen
  · rw [if_pos (by omega), if_pos short]
    rfl
  have ssrcRead : word32 ((data.drop 4).take 4) = word32 (data.drop 4) :=
    word32_take _ _ (by omega)
  have wordRead : word32 ((data.drop (len - ctx.authTagLen - 4)).take 4) =
      recvSrtcpWord ctx data len := word32_take _ _ (by omega)
  rw [if_neg (by omega), if_neg short]
  dsimp only
  rw [readBytes_ok data 0 _ (by omega), ok_bind, List.drop_zero]
  obtain ⟨diff, compared, equal⟩ := tagDiff_ok (ops.hmacSha1 ctx.srtcpAuthKey
    (data.take (len - ctx.authTagLen))) data (len - ctx.authTagLen) ctx.authTagLen
    (by omega) (by omega)
  rw [compared, ok_bind]
  have checked : diff ≠ 0 ↔ ¬ SrtcpTagOk ops ctx data len := not_congr equal
  by_cases forged : ¬ SrtcpTagOk ops ctx data len
  · rw [if_pos (checked.mpr forged), if_pos forged]
    rfl
  rw [if_neg (fun bad => forged (checked.mp bad)), if_neg forged,
    readBytes_ok data _ 4 (by omega), ok_bind, wordRead]
  change (match srtcpReplayStep ctx (recvSrtcpIndex ctx data len) with
    | none => _
    | some moved => _) = _
  cases step : srtcpReplayStep ctx (recvSrtcpIndex ctx data len) with
  | none => rfl
  | some moved =>
      obtain ⟨highest, window, rfl⟩ := srtcpReplayStep_frame ctx moved _ step
      dsimp only
      rw [readBytes_ok data 4 4 (by omega), ok_bind, ssrcRead]
      by_cases encrypted : recvSrtcpWord ctx data len &&& 0x80000000 ≠ 0
      · rw [if_pos encrypted, decryptInPlace_ok _ _ _ _ _ _ _ _ (by omega), ok_bind,
          show 8 + (len - ctx.authTagLen - 4 - 8) = len - ctx.authTagLen - 4 by omega]
        simp only [srtcpDecrypted, if_pos encrypted]
        rfl
      · simp only [srtcpDecrypted, if_neg encrypted]
        rfl

theorem srtcpRecvUnprotect_cases (ops : CryptoSrtpOps) (ctx : SrtpRecvCtx)
    (data : List UInt8) (len : Nat) (held : len ≤ data.length) :
    srtcpRecvUnprotect ops ctx data len = .ok ⟨ctx, -1, data, len⟩ ∧
        (12 + ctx.authTagLen ≤ len → SrtcpTagOk ops ctx data len →
          srtcpReplayStep ctx (recvSrtcpIndex ctx data len) = none) ∨
      12 + ctx.authTagLen ≤ len ∧ SrtcpTagOk ops ctx data len ∧
        ∃ moved, srtcpReplayStep ctx (recvSrtcpIndex ctx data len) = some moved ∧
          srtcpRecvUnprotect ops ctx data len =
            .ok ⟨moved, 0, srtcpDecrypted ops ctx data len, len - ctx.authTagLen - 4⟩ := by
  rw [srtcpRecvUnprotect_eq ops ctx data len held]
  by_cases short : len < 12 + ctx.authTagLen
  · rw [if_pos short]
    exact Or.inl ⟨rfl, fun long => absurd long (by omega)⟩
  rw [if_neg short]
  by_cases forged : ¬ SrtcpTagOk ops ctx data len
  · rw [if_pos forged]
    exact Or.inl ⟨rfl, fun _ genuine => absurd genuine forged⟩
  rw [if_neg forged]
  cases step : srtcpReplayStep ctx (recvSrtcpIndex ctx data len) with
  | none => exact Or.inl ⟨rfl, fun _ _ => rfl⟩
  | some moved => exact Or.inr ⟨by omega, not_not.mp forged, moved, rfl, rfl⟩

end Compy.Srtp
