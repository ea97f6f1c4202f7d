import Mathlib.Data.Nat.Bitwise
import Compy.Srtp.ReceiveSpec

/-!
# Unprotecting what was protected

One packet through both sides.  The receiver finds sequence number, SSRC and
header length in the clear part of the wire form, where the sender took them
from the packet, so it undoes the cipher when it has the same keys and arrives at
the same ROC and index.  Bytes behind the datagram in the caller's array are
`slack` and stay as they are.
-/

set_option autoImplicit false

namespace Compy.Srtp

open BigEndian CheckedBytes Compy.Rtp

/-- Both directions of a session use the same keys and tag length. -/
structure SharesSrtp (keys : SrtpTransport) (ctx : SrtpRecvCtx) : Prop where
  key : ctx.srtpKey = keys.sessionKey
  salt : ctx.srtpSalt = keys.sessionSalt
  authKey : ctx.srtpAuthKey = keys.authKey
  authTagLen : ctx.authTagLen = keys.authTagLen

theorem srtpHeaderLen_congr (left right : List UInt8) (headerLen : Nat)
    (length : right.length = left.length) (found : srtpHeaderLen left = some headerLen)
    (same : right.take headerLen = left.take headerLen) :
    srtpHeaderLen right = some headerLen := by
  have bounds := srtpHeaderLen_bounds left headerLen found
  have first : right.getD 0 0 = left.getD 0 0 := by
    have byte := congrArg (fun bytes : List UInt8 => bytes.getD 0 0) same
    simp only [List.getD_eq_getElem?_getD, List.getElem?_take] at byte ⊢
    rwa [if_pos (by omega), if_pos (by omega)] at byte
  simp only [srtpHeaderLen, first, length] at found ⊢
  split at found
  · contradiction
  · rename_i csrcs
    rw [if_neg csrcs]
    split at found
    · rename_i extension
      rw [if_pos extension]
      split at found
      · contradiction
      · rename_i fits
        have total := Option.some.inj found
        have words : word16 (right.drop (12 + (left.getD 0 0 &&& 0x0F).toNat * 4 + 2)) =
            word16 (left.drop (12 + (left.getD 0 0 &&& 0x0F).toNat * 4 + 2)) :=
          word16_drop_congr _ _ _ headerLen (by omega) same
        rw [words, if_neg fits, total]
    · rename_i plain
      rw [if_neg plain, Option.some.inj found]

theorem recvSeq_protect (ops : CryptoSrtpOps) (keys : SrtpTransport) (packet slack : List UInt8)
    (headerLen : Nat) (index : UInt32) (found : srtpHeaderLen packet = some headerLen) :
    recvSeq ((keys.protect ops packet headerLen index).wire ++ slack) = packetSeq packet := by
  obtain ⟨header, inside⟩ := srtpHeaderLen_bounds packet headerLen found
  have clearSize : (packet.take headerLen).length = headerLen := by
    rw [List.length_take]
    omega
  refine word16_drop_congr _ packet 2 headerLen (by omega) ?_
  simp only [SrtpTransport.protect, List.append_assoc, List.take_left' clearSize]

theorem srtpRecvUnprotect_protect (ops : CryptoSrtpOps) (keystream : Key → Iv → Nat → UInt8)
    (xors : CtrXors ops keystream) (keys : SrtpTransport) (ctx : SrtpRecvCtx)
    (shares : SharesSrtp keys ctx) (packet slack : List UInt8) (headerLen : Nat) (index : UInt32)
    (found : srtpHeaderLen packet = some headerLen)
    (fits : packet.length + keys.authTagLen ≤ srtpMaxPacketSize)
    (estimate : estimateRoc ctx (packetSeq packet) = (keys.roc, index))
    (passed : replayCheck ctx index = 0) :
    (keys.protect ops packet headerLen index).wire.length = packet.length + keys.authTagLen ∧
    ∃ rest, srtpRecvUnprotect ops ctx ((keys.protect ops packet headerLen index).wire ++ slack)
        (packet.length + keys.authTagLen) =
      .ok ⟨replayUpdate ctx (packetSeq packet) keys.roc, 0, packet ++ rest, packet.length⟩ := by
  obtain ⟨header, inside⟩ := srtpHeaderLen_bounds packet headerLen found
  have tagLen := keys.authTagLen.bounds
  have involutive := xors.involutive keys.sessionKey
    (srtpIv keys.sessionSalt (packetSsrc packet) index) (packet.drop headerLen)
  have cipherSize := ops.length_aes128Ctr keys.sessionKey
    (srtpIv keys.sessionSalt (packetSsrc packet) index) (packet.drop headerLen)
  rw [List.length_drop] at cipherSize
  simp only [SrtpTransport.protect, srtpEncryptPayload]
  generalize ops.aes128Ctr keys.sessionKey (srtpIv keys.sessionSalt (packetSsrc packet) index)
    (packet.drop headerLen) = cipher at *
  have clearSize : (packet.take headerLen).length = headerLen := by
    rw [List.length_take]
    omega
  have encryptedSize : (packet.take headerLen ++ cipher).length = packet.length := by
    rw [List.length_append, clearSize, cipherSize]
    omega
  have tagSize : ((ops.hmacSha1 keys.authKey (packet.take headerLen ++ cipher ++
      be32 keys.roc)).toList.take keys.authTagLen).length = keys.authTagLen := by
    rw [List.length_take, Vector.length_toList]
    omega
  generalize tag : (ops.hmacSha1 keys.authKey (packet.take headerLen ++ cipher ++
    be32 keys.roc)).toList.take keys.authTagLen = authTag at *
  refine ⟨by rw [List.length_append, encryptedSize, tagSize], authTag ++ slack, ?_⟩
  have body : (packet.take headerLen ++ cipher ++ authTag ++ slack).take packet.length =
      packet.take headerLen ++ cipher := by
    rw [List.append_assoc, List.take_left' encryptedSize]
  have behind : (packet.take headerLen ++ cipher ++ authTag ++ slack).drop packet.length =
      authTag ++ slack := by
    rw [List.append_assoc, List.drop_left' encryptedSize]
  have clear : (packet.take headerLen ++ cipher ++ authTag ++ slack).take headerLen =
      packet.take headerLen := by
    rw [List.append_assoc, List.append_assoc, List.take_left' clearSize]
  have secret : ((packet.take headerLen ++ cipher ++ authTag ++ slack).drop headerLen).take
      (packet.length - headerLen) = cipher := by
    rw [List.append_assoc, List.append_assoc, List.drop_left' clearSize,
      List.take_left' cipherSize]
  have size : packet.length + keys.authTagLen ≤
      (packet.take headerLen ++ cipher ++ authTag ++ slack).length := by
    rw [List.length_append, List.length_append, encryptedSize, tagSize]
    omega
  generalize packet.take headerLen ++ cipher ++ authTag ++ slack = data at *
  have seq : recvSeq data = packetSeq packet :=
    word16_drop_congr data packet 2 headerLen (by omega) clear
  have ssrc : word32 (data.drop 8) = packetSsrc packet :=
    word32_drop_congr data packet 8 headerLen (by omega) clear
  have roc : recvRoc ctx data = keys.roc := by rw [recvRoc, seq, estimate]
  have indexed : recvIndex ctx data = index := by rw [recvIndex, seq, estimate]
  have cut : packet.length + keys.authTagLen.val - keys.authTagLen = packet.length :=
    Nat.add_sub_cancel _ _
  have genuine : SrtpTagOk ops ctx data (packet.length + keys.authTagLen) := by
    rw [SrtpTagOk, shares.authTagLen, shares.authKey, cut, behind, body, roc, tag,
      List.take_left' tagSize]
  have parsed : srtpHeaderLen (data.take packet.length) = some headerLen := by
    rw [body]
    exact srtpHeaderLen_congr packet _ headerLen encryptedSize found (List.take_left' clearSize)
  rw [srtpRecvUnprotect_eq ops ctx data _ size, if_neg (by rw [shares.authTagLen]; omega), indexed,
    if_neg (not_not.mpr passed), if_neg (by rw [shares.authTagLen]; omega),
    if_neg (not_not.mpr genuine), shares.authTagLen, cut, parsed, seq, roc]
  simp only [srtpDecrypted, srtpEncryptPayload, shares.key, shares.salt, ssrc, indexed, secret,
    involutive, clear, behind, List.take_append_drop]

/-- Whatever a transmit hands over is undone by a context that has the same keys,
arrives at the sender's ROC and has not seen the index. -/
theorem transmit_unprotect (ops : CryptoSrtpOps) (keystream : Key → Iv → Nat → UInt8)
    (xors : CtrXors ops keystream) (innerRet : Int) (self next : SrtpTransport)
    (bufs : IoVecSlice) (handed : HandedSrtp) (ret : Int)
    (sent : SrtpTransport.transmit ops innerRet self bufs = ((next, some handed), ret))
    (ctx : SrtpRecvCtx) (shares : SharesSrtp self ctx)
    (estimate : (estimateRoc ctx (packetSeq bufs.flatten)).1 = next.roc)
    (passed : replayCheck ctx (estimateRoc ctx (packetSeq bufs.flatten)).2 = 0)
    (slack : List UInt8) :
    ∃ out, srtpRecvUnprotect ops ctx (handed.wire ++ slack) handed.wire.length = .ok out ∧
      out.ret = 0 ∧ out.len = bufs.flatten.length ∧ out.data.take out.len = bufs.flatten := by
  rcases SrtpTransport.transmit_cases ops innerRet self bufs with
    ⟨_, refused⟩ | ⟨fits, long, ⟨_, refused⟩ | ⟨headerLen, found, handedOver⟩⟩
  · rw [refused] at sent
    simp at sent
  · rw [refused] at sent
    simp at sent
  rw [handedOver] at sent
  simp only [Prod.mk.injEq, Option.some.injEq] at sent
  obtain ⟨⟨rfl, rfl⟩, _⟩ := sent
  have keys : SharesSrtp (self.trackSeq (packetSeq bufs.flatten)) ctx :=
    ⟨shares.key, shares.salt, shares.authKey, shares.authTagLen⟩
  have index : (estimateRoc ctx (packetSeq bufs.flatten)).2 =
      (self.trackSeq (packetSeq bufs.flatten)).roc * 65536 +
        (packetSeq bufs.flatten).toUInt32 := by
    rw [← estimate]
    rfl
  rw [index] at passed
  obtain ⟨length, rest, undone⟩ := srtpRecvUnprotect_protect ops keystream xors _ ctx keys
    bufs.flatten slack headerLen _ found fits (Prod.ext estimate index) passed
  rw [length]
  exact ⟨_, undone, rfl, rfl, List.take_left⟩

def csrcPacket : List UInt8 :=
  [0x91, 96, 0, 7, 0, 0, 0, 1, 0, 0, 0, 2, 0, 0, 0, 3, 0xBE, 0xDE, 0, 1, 0x10, 0xFF, 0, 0, 1, 2, 3]

def exampleMaster : SrtpKeyMaterial := ⟨Vector.replicate 16 1, Vector.replicate 14 2⟩

theorem csrcPacket_unprotect :
    ∃ next handed, SrtpTransport.transmit referenceOps 0
        (transportSrtp referenceOps .aesCm128HmacSha1_32 exampleMaster) [csrcPacket] =
          ((next, some handed), 0) ∧
      ∃ out, srtpRecvUnprotect referenceOps
          (srtpRecvNew referenceOps .aesCm128HmacSha1_32 exampleMaster)
          (handed.wire ++ [0]) handed.wire.length = .ok out ∧
        out.ret = 0 ∧ out.len = [csrcPacket].flatten.length ∧
        out.data.take out.len = [csrcPacket].flatten := by
  obtain ⟨next, handed, sent, roc⟩ : ∃ next handed, SrtpTransport.transmit referenceOps 0
      (transportSrtp referenceOps .aesCm128HmacSha1_32 exampleMaster) [csrcPacket] =
        ((next, some handed), 0) ∧ next.roc = 0 := ⟨_, _, rfl, rfl⟩
  refine ⟨next, handed, sent, ?_⟩
  apply transmit_unprotect referenceOps Aes128.keystream referenceOps_xors 0 _ next _ handed 0 sent
  · exact ⟨rfl, rfl, rfl, rfl⟩
  · exact roc.symm
  · rfl

/-! ## SRTCP -/

structure SharesSrtcp (keys : SrtcpTransport) (ctx : SrtpRecvCtx) : Prop where
  key : ctx.srtcpKey = keys.sessionKey
  salt : ctx.srtcpSalt = keys.sessionSalt
  authKey : ctx.srtcpAuthKey = keys.authKey
  authTagLen : ctx.authTagLen = keys.authTagLen

theorem eflag_index (index : UInt32) (small : index.toNat < 2 ^ 31) :
    (index ||| 0x80000000) &&& 0x7FFFFFFF = index := by
  apply UInt32.toNat_inj.mp
  have mask : (0x7FFFFFFF : UInt32).toNat = 2 ^ 31 - 1 := rfl
  have flag : (0x80000000 : UInt32).toNat = 2 ^ 31 * 1 := rfl
  rw [UInt32.toNat_and, UInt32.toNat_or, mask, flag, Nat.and_two_pow_sub_one_eq_mod, Nat.or_comm,
    ← Nat.two_pow_add_eq_or_of_lt small 1]
  omega

theorem eflag_set (index : UInt32) : (index ||| 0x80000000) &&& 0x80000000 ≠ 0 := by
  intro clear
  have bit := congrArg (fun word : UInt32 => word.toNat.testBit 31) clear
  have flag : Nat.testBit 2147483648 31 = true := by decide
  simp [flag] at bit

theorem srtcpRecvUnprotect_protect (ops : CryptoSrtpOps) (keystream : Key → Iv → Nat → UInt8)
    (xors : CtrXors ops keystream) (keys : SrtcpTransport) (ctx moved : SrtpRecvCtx)
    (shares : SharesSrtcp keys ctx) (packet slack : List UInt8) (long : 8 ≤ packet.length)
    (small : keys.srtcpIndex.toNat < 2 ^ 31)
    (accepted : srtcpReplayStep ctx keys.srtcpIndex = some moved) :
    (keys.protect ops packet).wire.length = packet.length + 4 + keys.authTagLen ∧
    ∃ rest, srtcpRecvUnprotect ops ctx ((keys.protect ops packet).wire ++ slack)
        (packet.length + 4 + keys.authTagLen) =
      .ok ⟨moved, 0, packet ++ rest, packet.length⟩ := by
  have tagLen := keys.authTagLen.bounds
  have involutive := xors.involutive keys.sessionKey
    (srtpIv keys.sessionSalt (word32 (packet.drop 4)) keys.srtcpIndex) (packet.drop 8)
  have cipherSize := ops.length_aes128Ctr keys.sessionKey
    (srtpIv keys.sessionSalt (word32 (packet.drop 4)) keys.srtcpIndex) (packet.drop 8)
  rw [List.length_drop] at cipherSize
  simp only [SrtcpTransport.protect, srtpEncryptPayload]
  generalize ops.aes128Ctr keys.sessionKey
    (srtpIv keys.sessionSalt (word32 (packet.drop 4)) keys.srtcpIndex) (packet.drop 8) = cipher at *
  have clearSize : (packet.take 8).length = 8 := by
    rw [List.length_take]
    omega
  have encryptedSize : (packet.take 8 ++ cipher).length = packet.length := by
    rw [List.length_append, clearSize, cipherSize]
    omega
  have indexedSize : (packet.take 8 ++ cipher ++ be32 (keys.srtcpIndex ||| 0x80000000)).length =
      packet.length + 4 := by
    rw [List.length_append, encryptedSize, length_be32]
  have tagSize : ((ops.hmacSha1 keys.authKey (packet.take 8 ++ cipher ++
      be32 (keys.srtcpIndex ||| 0x80000000))).toList.take keys.authTagLen).length =
      keys.authTagLen := by
    rw [List.length_take, Vector.length_toList]
    omega
  generalize tag : (ops.hmacSha1 keys.authKey (packet.take 8 ++ cipher ++
    be32 (keys.srtcpIndex ||| 0x80000000))).toList.take keys.authTagLen = authTag at *
  refine ⟨by rw [List.length_append, indexedSize, tagSize],
    be32 (keys.srtcpIndex ||| 0x80000000) ++ authTag ++ slack, ?_⟩
  have body : (packet.take 8 ++ cipher ++ be32 (keys.srtcpIndex ||| 0x80000000) ++ authTag ++
      slack).take (packet.length + 4) =
      packet.take 8 ++ cipher ++ be32 (keys.srtcpIndex ||| 0x80000000) := by
    rw [List.append_assoc _ authTag, List.take_left' indexedSize]
  have behind : (packet.take 8 ++ cipher ++ be32 (keys.srtcpIndex ||| 0x80000000) ++ authTag ++
      slack).drop (packet.length + 4) = authTag ++ slack := by
    rw [List.append_assoc _ authTag, List.drop_left' indexedSize]
  have trailer : (packet.take 8 ++ cipher ++ be32 (keys.srtcpIndex ||| 0x80000000) ++ authTag ++
      slack).drop packet.length = be32 (keys.srtcpIndex ||| 0x80000000) ++ authTag ++ slack := by
    rw [List.append_assoc _ authTag, List.append_assoc _ (be32 _), List.drop_left' encryptedSize,
      List.append_assoc]
  have clear : (packet.take 8 ++ cipher ++ be32 (keys.srtcpIndex ||| 0x80000000) ++ authTag ++
      slack).take 8 = packet.take 8 := by
    simp only [List.append_assoc, List.take_left' clearSize]
  have secret : ((packet.take 8 ++ cipher ++ be32 (keys.srtcpIndex ||| 0x80000000) ++ authTag ++
      slack).drop 8).take (packet.length - 8) = cipher := by
    simp only [List.append_assoc, List.drop_left' clearSize, List.take_left' cipherSize]
  have size : packet.length + 4 + keys.authTagLen ≤ (packet.take 8 ++ cipher ++
      be32 (keys.srtcpIndex ||| 0x80000000) ++ authTag ++ slack).length := by
    rw [List.length_append, List.length_append, indexedSize, tagSize]
    omega
  generalize packet.take 8 ++ cipher ++ be32 (keys.srtcpIndex ||| 0x80000000) ++ authTag ++
    slack = data at *
  have cut : packet.length + 4 + keys.authTagLen.val - keys.authTagLen = packet.length + 4 :=
    Nat.add_sub_cancel _ _
  have ssrc : word32 (data.drop 4) = word32 (packet.drop 4) :=
    word32_drop_congr data packet 4 8 (by decide) clear
  have word : recvSrtcpWord ctx data (packet.length + 4 + keys.authTagLen) =
      keys.srtcpIndex ||| 0x80000000 := by
    rw [recvSrtcpWord, shares.authTagLen, cut, Nat.add_sub_cancel, trailer, List.append_assoc,
      word32_be32]
  have indexed : recvSrtcpIndex ctx data (packet.length + 4 + keys.authTagLen) =
      keys.srtcpIndex := by
    rw [recvSrtcpIndex, word, eflag_index _ small]
  have genuine : SrtcpTagOk ops ctx data (packet.length + 4 + keys.authTagLen) := by
    rw [SrtcpTagOk, shares.authTagLen, shares.authKey, cut, behind, body, tag,
      List.take_left' tagSize]
  rw [srtcpRecvUnprotect_eq ops ctx data _ size, if_neg (by rw [shares.authTagLen]; omega),
    if_neg (not_not.mpr genuine), indexed, accepted]
  simp only [srtcpDecrypted, word, if_pos (eflag_set _), indexed, shares.authTagLen, cut,
    Nat.add_sub_cancel, srtpEncryptPayload, shares.key, shares.salt, ssrc, secret, involutive,
    clear, trailer, List.take_append_drop]

end Compy.Srtp
