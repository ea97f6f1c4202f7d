import Compy.Rtp.Transport
import Compy.Srtp.Crypto

/-!
# The sending side of SRTP and SRTCP

`Compy_SrtpTransport_transmit` and `Compy_SrtcpTransport_transmit`.  What the
inner transport answers is an argument, and a transmit that reaches the inner
transport also returns what it handed over: the coalesced plaintext, the values
it encrypted and authenticated with, and the bytes on the wire.
-/

set_option autoImplicit false

namespace Compy.Srtp

open BigEndian Compy.Rtp

structure SrtpTransport where
  sessionKey : Key
  sessionSalt : Salt
  authKey : AuthKey
  roc : UInt32
  prevSeq : UInt16
  authTagLen : AuthTagLen

/-- `srtp_derive_keys` on the memory `compy_transport_srtp` allocates. -/
def transportSrtp (ops : CryptoSrtpOps) (suite : SrtpSuite) (key : SrtpKeyMaterial) :
    SrtpTransport where
  sessionKey := srtpKdf ops key labelSrtpEncryption 16
  sessionSalt := srtpKdf ops key labelSrtpSalt 14
  authKey := srtpKdf ops key labelSrtpAuth 20
  roc := 0
  prevSeq := 0
  authTagLen := suite.authTagLen

/-- Length of the part sent in the clear: 12 bytes, the CSRC list and the
header extension.  `none` when they overrun the packet. -/
def srtpHeaderLen (packet : List UInt8) : Option Nat :=
  let first := packet.getD 0 0
  let headerLen := 12 + (first &&& 0x0F).toNat * 4
  if packet.length < headerLen then none
  else if first &&& 0x10 ≠ 0 ∧ headerLen + 4 ≤ packet.length then
    let extWords := word16 (packet.drop (headerLen + 2))
    let headerLen := headerLen + (4 + extWords.toNat * 4)
    if packet.length < headerLen then none else some headerLen
  else some headerLen

def packetSsrc (packet : List UInt8) : UInt32 := word32 (packet.drop 8)

def packetSeq (packet : List UInt8) : UInt16 := word16 (packet.drop 2)

structure HandedSrtp where
  packet : List UInt8
  headerLen : Nat
  roc : UInt32
  index : UInt32
  iv : Iv
  wire : List UInt8

/-- Encrypt behind the header, authenticate with the ROC appended, replace the
ROC by the truncated tag. -/
def SrtpTransport.protect (ops : CryptoSrtpOps) (self : SrtpTransport) (packet : List UInt8)
    (headerLen : Nat) (index : UInt32) : HandedSrtp :=
  let encrypted := packet.take headerLen ++ srtpEncryptPayload ops self.sessionKey
    self.sessionSalt (packetSsrc packet) index (packet.drop headerLen)
  let hmacOut := ops.hmacSha1 self.authKey (encrypted ++ be32 self.roc)
  { packet := packet
    headerLen := headerLen
    roc := self.roc
    index := index
    iv := srtpIv self.sessionSalt (packetSsrc packet) index
    wire := encrypted ++ hmacOut.toList.take self.authTagLen }

/-- The rollover counter moves before the header length is checked. -/
def SrtpTransport.trackSeq (self : SrtpTransport) (seq : UInt16) : SrtpTransport :=
  { self with
    roc := if seq < self.prevSeq ∧ 0x7FFF < self.prevSeq.toNat - seq.toNat then self.roc + 1
      else self.roc
    prevSeq := seq }

def SrtpTransport.transmit (ops : CryptoSrtpOps) (innerRet : Int) (self : SrtpTransport)
    (bufs : IoVecSlice) : (SrtpTransport × Option HandedSrtp) × Int :=
  let total := bufs.len
  if srtpMaxPacketSize < total + self.authTagLen then ((self, none), -1)
  else
    let packet := bufs.flatten
    if total < 12 then ((self, none), -1)
    else
      let seq := packetSeq packet
      let self := self.trackSeq seq
      let index := self.roc * 65536 + seq.toUInt32
      match srtpHeaderLen packet with
      | none => ((self, none), -1)
      | some headerLen => ((self, some (self.protect ops packet headerLen index)), innerRet)

/-- A transmit stops at the size of the packet, stops at its header length with the
counter moved, or hands the packet over. -/
theorem SrtpTransport.transmit_cases (ops : CryptoSrtpOps) (innerRet : Int)
    (self : SrtpTransport) (bufs : IoVecSlice) :
    (srtpMaxPacketSize < bufs.flatten.length + self.authTagLen ∨ bufs.flatten.length < 12) ∧
        transmit ops innerRet self bufs = ((self, none), -1) ∨
      bufs.flatten.length + self.authTagLen ≤ srtpMaxPacketSize ∧ 12 ≤ bufs.flatten.length ∧
        (srtpHeaderLen bufs.flatten = none ∧ transmit ops innerRet self bufs =
            ((self.trackSeq (packetSeq bufs.flatten), none), -1) ∨
          ∃ headerLen, srtpHeaderLen bufs.flatten = some headerLen ∧
            transmit ops innerRet self bufs =
              ((self.trackSeq (packetSeq bufs.flatten),
                some ((self.trackSeq (packetSeq bufs.flatten)).protect ops bufs.flatten headerLen
                  ((self.trackSeq (packetSeq bufs.flatten)).roc * 65536 +
                    (packetSeq bufs.flatten).toUInt32))), innerRet)) := by
  simp only [SrtpTransport.transmit, IoVecSlice.len_eq]
  by_cases oversize : srtpMaxPacketSize < bufs.flatten.length + self.authTagLen
  · rw [if_pos oversize]
    exact Or.inl ⟨Or.inl oversize, rfl⟩
  rw [if_neg oversize]
  by_cases short : bufs.flatten.length < 12
  · rw [if_pos short]
    exact Or.inl ⟨Or.inr short, rfl⟩
  rw [if_neg short]
  right
  refine ⟨Nat.le_of_not_lt oversize, Nat.le_of_not_lt short, ?_⟩
  cases found : srtpHeaderLen bufs.flatten with
  | none => exact Or.inl ⟨rfl, rfl⟩
  | some headerLen => exact Or.inr ⟨headerLen, rfl, rfl⟩

/-! ## SRTCP -/

structure SrtcpTransport where
  sessionKey : Key
  sessionSalt : Salt
  authKey : AuthKey
  srtcpIndex : UInt32
  authTagLen : AuthTagLen

def transportSrtcp (ops : CryptoSrtpOps) (suite : SrtpSuite) (key : SrtpKeyMaterial) :
    SrtcpTransport where
  sessionKey := srtpKdf ops key labelSrtcpEncryption 16
  sessionSalt := srtpKdf ops key labelSrtcpSalt 14
  authKey := srtpKdf ops key labelSrtcpAuth 20
  srtcpIndex := 0
  authTagLen := suite.authTagLen

structure HandedSrtcp where
  packet : List UInt8
  index : UInt32
  wire : List UInt8

def SrtcpTransport.protect (ops : CryptoSrtpOps) (self : SrtcpTransport)
    (packet : List UInt8) : HandedSrtcp :=
  let ssrc := word32 (packet.drop 4)
  let encrypted := packet.take 8 ++ srtpEncryptPayload ops self.sessionKey self.sessionSalt
    ssrc self.srtcpIndex (packet.drop 8)
  let indexed := encrypted ++ be32 (self.srtcpIndex ||| 0x80000000)
  let hmacOut := ops.hmacSha1 self.authKey indexed
  { packet := packet
    index := self.srtcpIndex
    wire := indexed ++ hmacOut.toList.take self.authTagLen }

/-- The index moves before the inner transport is called, whatever it answers. -/
def SrtcpTransport.transmit (ops : CryptoSrtpOps) (innerRet : Int) (self : SrtcpTransport)
    (bufs : IoVecSlice) : (SrtcpTransport × Option HandedSrtcp) × Int :=
  let total := bufs.len
  if srtpMaxPacketSize < total + 4 + self.authTagLen then ((self, none), -1)
  else
    let packet := bufs.flatten
    if total < 8 then ((self, none), -1)
    else
      (({ self with srtcpIndex := self.srtcpIndex + 1 }, some (self.protect ops packet)), innerRet)

end Compy.Srtp
