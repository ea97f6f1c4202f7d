import Compy.Library.CheckedBytes
import Compy.Srtp.Transport

/-!
# The receiving side of SRTP and SRTCP

`compy_srtp_recv_unprotect` and `compy_srtcp_recv_unprotect` with every array
access checked.  `data` is the caller's array, `len` the value behind the
caller's length pointer; both come back in the outcome, changed or not.
-/

set_option autoImplicit false

namespace Compy.Srtp

open BigEndian CheckedBytes

structure SrtpRecvCtx where
  srtpKey : Key
  srtpSalt : Salt
  srtpAuthKey : AuthKey
  srtcpKey : Key
  srtcpSalt : Salt
  srtcpAuthKey : AuthKey
  roc : UInt32
  sL : UInt16
  initialized : Bool
  replayWindow : BitVec 64
  srtcpHighestIndex : UInt32
  srtcpReplayWindow : BitVec 64
  authTagLen : AuthTagLen

def srtpRecvNew (ops : CryptoSrtpOps) (suite : SrtpSuite) (key : SrtpKeyMaterial) :
    SrtpRecvCtx where
  srtpKey := srtpKdf ops key labelSrtpEncryption 16
  srtpSalt := srtpKdf ops key labelSrtpSalt 14
  srtpAuthKey := srtpKdf ops key labelSrtpAuth 20
  srtcpKey := srtpKdf ops key labelSrtcpEncryption 16
  srtcpSalt := srtpKdf ops key labelSrtcpSalt 14
  srtcpAuthKey := srtpKdf ops key labelSrtcpAuth 20
  roc := 0
  sL := 0
  initialized := false
  replayWindow := 0
  srtcpHighestIndex := 0
  srtcpReplayWindow := 0
  authTagLen := suite.authTagLen

def srtpReplayWindowSize : Nat := 64

/-- The estimated ROC and, as `out_index`, the 32-bit packet index.  The two
16-bit operands of the subtraction are promoted to `int`. -/
def estimateRoc (ctx : SrtpRecvCtx) (seq : UInt16) : UInt32 × UInt32 :=
  let v :=
    if ¬ ctx.initialized then 0
    else if ctx.sL < 0x8000 then
      if (seq.toNat : Int) - ctx.sL.toNat > 0x8000 then
        if ctx.roc = 0 then 0 else ctx.roc - 1
      else ctx.roc
    else
      if (ctx.sL.toNat : Int) - 0x8000 > seq.toNat then ctx.roc + 1
      else ctx.roc
  (v, v * 65536 + seq.toUInt32)

def replayCheck (ctx : SrtpRecvCtx) (index : UInt32) : Int :=
  if ¬ ctx.initialized then 0
  else
    let highest := ctx.roc * 65536 + ctx.sL.toUInt32
    if highest < index then 0
    else
      let delta := highest - index
      if srtpReplayWindowSize ≤ delta.toNat then -1
      else if ctx.replayWindow &&& 1#64 <<< delta.toNat ≠ 0 then -1
      else 0

def replayUpdate (ctx : SrtpRecvCtx) (seq : UInt16) (v : UInt32) : SrtpRecvCtx :=
  let index := v * 65536 + seq.toUInt32
  if ¬ ctx.initialized then
    { ctx with sL := seq, roc := v, replayWindow := 1, initialized := true }
  else
    let highest := ctx.roc * 65536 + ctx.sL.toUInt32
    if highest < index then
      let shift := index - highest
      let slid := if shift.toNat < srtpReplayWindowSize then ctx.replayWindow <<< shift.toNat
        else 0
      { ctx with replayWindow := slid ||| 1, sL := seq, roc := v }
    else
      let delta := highest - index
      { ctx with replayWindow := ctx.replayWindow ||| 1#64 <<< delta.toNat }

structure RecvOutcome where
  ctx : SrtpRecvCtx
  ret : Int
  data : List UInt8
  len : Nat

/-- The constant-time comparison: the OR of all byte differences. -/
def tagDiff (expectedTag : Vector UInt8 20) (data : List UInt8) (offset count : Nat) :
    Access UInt8 := do
  let expected ← readBytes expectedTag.toList 0 count
  let received ← readBytes data offset count
  return (List.zipWith (· ^^^ ·) expected received).foldl (· ||| ·) 0

/-- The receiver's copy of the header length computation, on the array itself. -/
def recvHeaderLen (data : List UInt8) (encryptedLen : Nat) : Access (Option Nat) := do
  let first ← readBytes data 0 1
  let first := first.getD 0 0
  let headerLen := 12 + (first &&& 0x0F).toNat * 4
  if encryptedLen < headerLen then return none
  else if first &&& 0x10 ≠ 0 ∧ headerLen + 4 ≤ encryptedLen then
    let words ← readBytes data (headerLen + 2) 2
    let headerLen := headerLen + (4 + (word16 words).toNat * 4)
    if encryptedLen < headerLen then return none else return some headerLen
  else return some headerLen

def decryptInPlace (ops : CryptoSrtpOps) (key : Key) (salt : Salt) (ssrc index : UInt32)
    (data : List UInt8) (offset count : Nat) : Access (List UInt8) := do
  let payload ← readBytes data offset count
  writeBytes data offset (srtpEncryptPayload ops key salt ssrc index payload)

/-- `uint8_t auth_input[SRTP_MAX_PACKET_SIZE + 4]` filled with the packet and the
ROC.  Its size is the only bound the receiver puts on `encryptedLen`. -/
def srtpAuthInput (data : List UInt8) (encryptedLen : Nat) (v : UInt32) :
    Access (List UInt8) := do
  let authInput := List.replicate (srtpMaxPacketSize + 4) 0
  let authInput ← writeBytes authInput 0 (← readBytes data 0 encryptedLen)
  let authInput ← writeBytes authInput encryptedLen (be32 v)
  readBytes authInput 0 (encryptedLen + 4)

def srtpRecvUnprotect (ops : CryptoSrtpOps) (ctx : SrtpRecvCtx) (data : List UInt8)
    (len : Nat) : Access RecvOutcome := do
  if len < 12 + ctx.authTagLen then return ⟨ctx, -1, data, len⟩
  let encryptedLen := len - ctx.authTagLen
  let ssrc := word32 (← readBytes data 8 4)
  let seq := word16 (← readBytes data 2 2)
  let (v, index) := estimateRoc ctx seq
  if replayCheck ctx index ≠ 0 then return ⟨ctx, -1, data, len⟩
  let expectedTag := ops.hmacSha1 ctx.srtpAuthKey (← srtpAuthInput data encryptedLen v)
  if (← tagDiff expectedTag data encryptedLen ctx.authTagLen) ≠ 0 then
    return ⟨ctx, -1, data, len⟩
  -- The window moves here, before the header length is known to fit.
  let ctx := replayUpdate ctx seq v
  match ← recvHeaderLen data encryptedLen with
  | none => return ⟨ctx, -1, data, len⟩
  | some headerLen =>
      let data ← decryptInPlace ops ctx.srtpKey ctx.srtpSalt ssrc index data headerLen
        (encryptedLen - headerLen)
      return ⟨ctx, 0, data, encryptedLen⟩

/-- The sliding window of the SRTCP call; `none` is "too old" or "already seen". -/
def srtcpReplayStep (ctx : SrtpRecvCtx) (srtcpIndex : UInt32) : Option SrtpRecvCtx :=
  if ctx.srtcpHighestIndex < srtcpIndex then
    let shift := srtcpIndex - ctx.srtcpHighestIndex
    let slid := if shift.toNat < srtpReplayWindowSize then
      ctx.srtcpReplayWindow <<< shift.toNat else 0
    some { ctx with srtcpReplayWindow := slid ||| 1, srtcpHighestIndex := srtcpIndex }
  else
    let delta := ctx.srtcpHighestIndex - srtcpIndex
    if srtpReplayWindowSize ≤ delta.toNat then none
    else if ctx.srtcpReplayWindow &&& 1#64 <<< delta.toNat ≠ 0 then none
    else some { ctx with
      srtcpReplayWindow := ctx.srtcpReplayWindow ||| 1#64 <<< delta.toNat }

def srtcpRecvUnprotect (ops : CryptoSrtpOps) (ctx : SrtpRecvCtx) (data : List UInt8)
    (len : Nat) : Access RecvOutcome := do
  if len < 8 + 4 + ctx.authTagLen then return ⟨ctx, -1, data, len⟩
  let authStart := len - ctx.authTagLen
  let indexStart := authStart - 4
  let expectedTag := ops.hmacSha1 ctx.srtcpAuthKey (← readBytes data 0 authStart)
  if (← tagDiff expectedTag data authStart ctx.authTagLen) ≠ 0 then
    return ⟨ctx, -1, data, len⟩
  let word := word32 (← readBytes data indexStart 4)
  let encrypted := word &&& 0x80000000 ≠ 0
  let srtcpIndex := word &&& 0x7FFFFFFF
  match srtcpReplayStep ctx srtcpIndex with
  | none => return ⟨ctx, -1, data, len⟩
  | some ctx =>
      let ssrc := word32 (← readBytes data 4 4)
      if encrypted then
        let data ← decryptInPlace ops ctx.srtcpKey ctx.srtcpSalt ssrc srtcpIndex data 8
          (indexStart - 8)
        return ⟨ctx, 0, data, indexStart⟩
      else return ⟨ctx, 0, data, indexStart⟩

end Compy.Srtp
