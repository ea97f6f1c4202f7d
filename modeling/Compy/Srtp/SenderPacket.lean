import Compy.Srtp.Transport

/-!
# The packet of one `send_packet`

The three I/O vectors put together are the plaintext the SRTP transport sees.
Its sequence number and SSRC are those of the RTP transport, the part before the
payload is what the SRTP transport finds to be the header, and at one sequence
number two packets are equal exactly when what the caller decides about is.
-/

set_option autoImplicit false

namespace Compy.Srtp

open BigEndian Compy.Rtp

structure SendArgs where
  ts : RtpTimestamp
  marker : Bool
  payloadHeader : List UInt8
  payload : List UInt8
  monotonicUs : UInt64

def packetOf (rtp : RtpTransport) (args : SendArgs) : List UInt8 :=
  rtp.headerBytes args.ts args.marker ++ (args.payloadHeader ++ args.payload)

/-- What a caller decides about a packet: timestamp, second header byte,
extension and payload. -/
def contentOf (rtp : RtpTransport) (args : SendArgs) :
    UInt32 × UInt8 × List UInt8 × List UInt8 :=
  (computeTimestamp args.ts rtp.clockRate, rtp.payloadTy ||| (if args.marker then 0x80 else 0),
    rtp.extension, args.payloadHeader ++ args.payload)

def fixedHeader (rtp : RtpTransport) (args : SendArgs) : List UInt8 :=
  [if rtp.extension = [] then 0x80 else 0x90,
    rtp.payloadTy ||| (if args.marker then 0x80 else 0)] ++ be16 rtp.seqNum ++
    be32 (computeTimestamp args.ts rtp.clockRate) ++ be32 rtp.ssrc

theorem packetOf_eq (rtp : RtpTransport) (args : SendArgs) :
    packetOf rtp args =
      fixedHeader rtp args ++ (rtp.extensionHeader ++ (args.payloadHeader ++ args.payload)) := by
  simp only [packetOf, RtpTransport.headerBytes, fixedHeader, List.append_assoc]

@[simp] theorem length_fixedHeader (rtp : RtpTransport) (args : SendArgs) :
    (fixedHeader rtp args).length = 12 := rfl

theorem length_packetOf (rtp : RtpTransport) (args : SendArgs) :
    (packetOf rtp args).length =
      12 + (rtp.extensionHeader.length + (args.payloadHeader.length + args.payload.length)) := by
  rw [packetOf_eq, List.length_append, List.length_append, List.length_append, length_fixedHeader]

theorem packetSeq_packetOf (rtp : RtpTransport) (args : SendArgs) :
    packetSeq (packetOf rtp args) = rtp.seqNum := by
  rw [packetOf_eq]
  exact word16_be16 rtp.seqNum _

theorem packetSsrc_packetOf (rtp : RtpTransport) (args : SendArgs) :
    packetSsrc (packetOf rtp args) = rtp.ssrc := by
  rw [packetOf_eq]
  exact word32_be32 rtp.ssrc _

theorem extensionHeader_cases (rtp : RtpTransport) :
    rtp.extension = [] ∧ rtp.extensionHeader = [] ∨
      rtp.extension ≠ [] ∧ ∃ words : UInt16, words.toNat * 4 = rtp.extension.length ∧
        rtp.extensionHeader = be16 0xBEDE ++ be16 words ++ rtp.extension := by
  by_cases empty : rtp.extension = []
  · exact Or.inl ⟨empty, if_pos empty⟩
  · have whole := rtp.extLen_words
    refine Or.inr ⟨empty, _, ?_, if_neg empty⟩
    rw [rtp.length_extension, UInt16.toNat_ofNat', Nat.mod_eq_of_lt (by omega)]
    omega

theorem srtpHeaderLen_packetOf (rtp : RtpTransport) (args : SendArgs) :
    srtpHeaderLen (packetOf rtp args) = some (12 + rtp.extensionHeader.length) := by
  have size := length_packetOf rtp args
  have first : (packetOf rtp args).getD 0 0 = if rtp.extension = [] then 0x80 else 0x90 := by
    rw [packetOf_eq]
    rfl
  rcases extensionHeader_cases rtp with ⟨empty, none⟩ | ⟨present, words, count, header⟩
  · rw [if_pos empty] at first
    rw [none, List.length_nil] at size
    simp only [srtpHeaderLen, first, none]
    rw [if_neg (by simp [size]), if_neg (fun both => both.1 (by decide))]
    rfl
  · rw [if_neg present] at first
    have long : rtp.extensionHeader.length = 4 + words.toNat * 4 := by
      rw [header, List.length_append, List.length_append, count]
      rfl
    have read : word16 ((packetOf rtp args).drop (12 + 2)) = words := by
      rw [packetOf_eq, header]
      exact word16_be16 words _
    have fifteen : ((0x90 : UInt8) &&& 0x0F).toNat = 0 := by decide
    simp only [srtpHeaderLen, first, fifteen, Nat.zero_mul, Nat.add_zero, read]
    rw [if_neg (by omega), if_pos ⟨by decide, by omega⟩, if_neg (by omega), long]

theorem SrtpTransport.transmit_packetOf (ops : CryptoSrtpOps) (innerRet : Int)
    (self : SrtpTransport) (rtp : RtpTransport) (args : SendArgs) :
    SrtpTransport.transmit ops innerRet self
        [rtp.headerBytes args.ts args.marker, args.payloadHeader, args.payload] =
      if srtpMaxPacketSize < (packetOf rtp args).length + self.authTagLen then ((self, none), -1)
      else ((self.trackSeq rtp.seqNum, some ((self.trackSeq rtp.seqNum).protect ops
        (packetOf rtp args) (12 + rtp.extensionHeader.length)
        ((self.trackSeq rtp.seqNum).roc * 65536 + rtp.seqNum.toUInt32))), innerRet) := by
  have flat : List.flatten [rtp.headerBytes args.ts args.marker, args.payloadHeader,
      args.payload] = packetOf rtp args := by
    simp [packetOf]
  have long := length_packetOf rtp args
  unfold SrtpTransport.transmit
  simp only [IoVecSlice.len_eq, flat, packetSeq_packetOf, srtpHeaderLen_packetOf]
  split
  · rfl
  · rw [if_neg (by omega)]

theorem contentOf_eq_iff (left right : RtpTransport) (leftArgs rightArgs : SendArgs)
    (seqNum : left.seqNum = right.seqNum) (ssrc : left.ssrc = right.ssrc) :
    packetOf left leftArgs = packetOf right rightArgs ↔
      contentOf left leftArgs = contentOf right rightArgs := by
  constructor
  · intro same
    rw [packetOf_eq, packetOf_eq] at same
    obtain ⟨fixed, tail⟩ := List.append_inj same rfl
    have ts : word32 ((fixedHeader left leftArgs).drop 4) =
        word32 ((fixedHeader right rightArgs).drop 4) := by rw [fixed]
    have ts : computeTimestamp leftArgs.ts left.clockRate =
        computeTimestamp rightArgs.ts right.clockRate :=
      (word32_be32 _ _).symm.trans (ts.trans (word32_be32 _ _))
    have second : left.payloadTy ||| (if leftArgs.marker then 0x80 else 0) =
        right.payloadTy ||| (if rightArgs.marker then 0x80 else 0) :=
      congrArg (fun bytes => bytes.getD 1 0) fixed
    have first : (if left.extension = [] then (0x80 : UInt8) else 0x90) =
        if right.extension = [] then 0x80 else 0x90 :=
      congrArg (fun bytes => bytes.getD 0 0) fixed
    rcases extensionHeader_cases left with ⟨empty, none⟩ | ⟨present, words, count, header⟩
    · rcases extensionHeader_cases right with ⟨empty', none'⟩ | ⟨present', _, _, _⟩
      · rw [none, none'] at tail
        rw [contentOf, contentOf, ts, second, empty, empty']
        exact congrArg _ (congrArg _ (congrArg _ tail))
      · rw [if_pos empty, if_neg present'] at first
        contradiction
    · rcases extensionHeader_cases right with ⟨empty', _⟩ | ⟨present', words', count', header'⟩
      · rw [if_neg present, if_pos empty'] at first
        contradiction
      · rw [header, header'] at tail
        have same := congrArg (fun bytes => word16 (bytes.drop 2)) tail
        have same : words = words' :=
          (word16_be16 words _).symm.trans (same.trans (word16_be16 words' _))
        simp only [List.append_assoc] at tail
        have tail := List.append_cancel_left tail
        rw [same] at tail count
        obtain ⟨extension, body⟩ := List.append_inj (List.append_cancel_left tail)
          (count.symm.trans count')
        rw [contentOf, contentOf, ts, second, extension, body]
  · intro same
    obtain ⟨ts, second, extension, body⟩ :
        computeTimestamp leftArgs.ts left.clockRate =
          computeTimestamp rightArgs.ts right.clockRate ∧
        left.payloadTy ||| (if leftArgs.marker then 0x80 else 0) =
          right.payloadTy ||| (if rightArgs.marker then 0x80 else 0) ∧
        left.extension = right.extension ∧
        leftArgs.payloadHeader ++ leftArgs.payload =
          rightArgs.payloadHeader ++ rightArgs.payload := by
      simpa only [contentOf, Prod.mk.injEq] using same
    rw [packetOf_eq, packetOf_eq, fixedHeader, fixedHeader, RtpTransport.extensionHeader,
      RtpTransport.extensionHeader, ts, second, extension, body, seqNum, ssrc]

end Compy.Srtp
