import Compy.Reports.Deserialize
import Compy.Reports.Session

/-!
# The compound packet of a sender report

What a peer finds that walks through the packet by the lengths its headers declare: the SR,
the SDES, and nothing behind.
-/

set_option autoImplicit false

namespace Compy.Reports

open BigEndian CheckedBytes Compy.Rtp Compy.Rtsp

/-- The size that a header declares. -/
def RtcpHeader.size (self : RtcpHeader) : Nat := (self.length.toNat + 1) * 4

/-- The headers met from the start to the exact end of the data. -/
inductive Walks : List UInt8 → List RtcpHeader → Prop
  | done : Walks [] []
  | step {data : List UInt8} {hdr : RtcpHeader} {hdrs : List RtcpHeader}
      (read : RtcpHeader.deserialize data = .ok (some hdr)) (inside : hdr.size ≤ data.length)
      (rest : Walks (data.drop hdr.size) hdrs) : Walks data (hdr :: hdrs)

theorem Walks.unique {data : List UInt8} {left right : List RtcpHeader} (walked : Walks data left)
    (also : Walks data right) : left = right := by
  induction walked generalizing right with
  | done =>
      cases also with
      | done => rfl
      | step read _ _ => simp [RtcpHeader.deserialize_eq] at read
  | step read _ _ ih =>
      cases also with
      | done => simp [RtcpHeader.deserialize_eq] at read
      | step other _ rest =>
          have same : _ = _ := Option.some.inj (Except.ok.inj (read.symm.trans other))
          subst same
          rw [ih rest]

/-! ## The two packets -/

def srHeader : RtcpHeader where
  version := 2
  padding := 0
  count := 0
  packetType := rtcpSr
  length := 6

def sdesHeader (cname : List UInt8) : RtcpHeader where
  version := 2
  padding := 0
  count := 1
  packetType := rtcpSdes
  length := UInt16.ofNat ((4 + (4 + 2 + cname.length + 1 + 3) / 4 * 4) / 4 - 1)

theorem length_infoBytes (info : RtcpSenderInfo) : info.bytes.length = 28 := rfl

theorem sr_read (info : RtcpSenderInfo) (behind : List UInt8) :
    RtcpHeader.deserialize (info.bytes ++ behind) = .ok (some srHeader) := by
  have header : headerOf (info.bytes ++ behind) = srHeader := by
    have first : (info.bytes ++ behind).getD 0 0 = 0x80 := rfl
    have second : (info.bytes ++ behind).getD 1 0 = 200 := rfl
    have length : word16 ((info.bytes ++ behind).drop 2) = 6 := word16_be16 6 _
    rw [headerOf, first, second, length]
    simp only [srHeader, rtcpSr, RtcpHeader.mk.injEq, and_true]
    decide
  have long : 4 ≤ (info.bytes ++ behind).length := by
    rw [List.length_append, length_infoBytes]
    omega
  rw [RtcpHeader.deserialize_eq, header, if_pos ⟨long, rfl⟩]

theorem sdes_read (ssrc : UInt32) (cname : List UInt8) :
    RtcpHeader.deserialize (sdesBytes ssrc cname) = .ok (some (sdesHeader cname)) := by
  have header : headerOf (sdesBytes ssrc cname) = sdesHeader cname := by
    have first : (sdesBytes ssrc cname).getD 0 0 = 0x81 := rfl
    have second : (sdesBytes ssrc cname).getD 1 0 = 202 := rfl
    have length : word16 ((sdesBytes ssrc cname).drop 2) = (sdesHeader cname).length :=
      word16_be16 _ _
    rw [headerOf, first, second, length]
    simp only [sdesHeader, rtcpSdes, RtcpHeader.mk.injEq, and_true]
    decide
  have long : 4 ≤ (sdesBytes ssrc cname).length := by
    rw [length_sdesBytes]
    omega
  rw [RtcpHeader.deserialize_eq, header, if_pos ⟨long, rfl⟩]

theorem sdes_size (ssrc : UInt32) (cname : List UInt8) (short : cname.length ≤ 255) :
    (sdesHeader cname).size = (sdesBytes ssrc cname).length := by
  rw [length_sdesBytes, RtcpHeader.size, sdesHeader]
  dsimp only
  rw [UInt16.toNat_ofNat']
  omega

theorem compound_walks (info : RtcpSenderInfo) (cname : List UInt8) (short : cname.length ≤ 255) :
    Walks (info.bytes ++ sdesBytes info.ssrc cname) [srHeader, sdesHeader cname] := by
  have first : srHeader.size = info.bytes.length := rfl
  have second := sdes_size info.ssrc cname short
  apply Walks.step (sr_read info _)
  · rw [first, List.length_append]
    omega
  · rw [first, List.drop_left]
    apply Walks.step (sdes_read info.ssrc cname)
    · omega
    · rw [second, List.drop_length]
      exact .done

theorem length_storedCname (cname : List UInt8) : (Rtcp.new cname).cname.length ≤ 255 :=
  List.length_take_le 255 (cStr cname)

theorem cStr_storedCname (cname : List UInt8) :
    cStr (Rtcp.new cname).cname = (Rtcp.new cname).cname := by
  apply cStr_of_present
  intro c member
  have kept := List.all_takeWhile (p := (· != 0)) (l := cname)
  rw [List.all_eq_true] at kept
  exact bne_iff_ne.mp (kept c (List.mem_of_mem_take member))

/-- The packet for a CNAME that has been cut to its array. -/
def compound (info : RtcpSenderInfo) (cname : List UInt8) : List UInt8 :=
  info.bytes ++ sdesBytes info.ssrc (Rtcp.new cname).cname

theorem sendSr_compound {τ : Type} (cname : List UInt8) (rtp : RtpTransport)
    (transmit : IoVecSlice → τ × Int) (clock : Clock) :
    (Rtcp.new cname).sendSr rtp transmit clock =
      .ok (transmit [compound (senderInfo rtp clock) cname]) := by
  have serialized := RtcpSenderReport.serialize_ok (senderInfo rtp clock) (Rtcp.new cname).cname
    (Rtcp.new cname).cname_fits
  rw [cStr_storedCname] at serialized
  rw [Rtcp.sendSr, serialized]
  rfl

theorem length_compound (info : RtcpSenderInfo) (cname : List UInt8) :
    (compound info cname).length = 32 + ((Rtcp.new cname).cname.length + 10) / 4 * 4 := by
  rw [compound, List.length_append, length_infoBytes, length_sdesBytes]
  omega

theorem sr_words (info : RtcpSenderInfo) (behind : List UInt8) :
    [4, 8, 12, 16, 20, 24].mapM (readU32 (info.bytes ++ behind)) =
      .ok [info.ssrc, info.ntpTimestampMsw, info.ntpTimestampLsw, info.rtpTimestamp,
        info.senderPacketCount, info.senderOctetCount] := by
  have long : 28 ≤ (info.bytes ++ behind).length := by
    rw [List.length_append, length_infoBytes]
    omega
  have word (offset : Nat) (value : UInt32) (rest : List UInt8) (inside : offset + 4 ≤ 28)
      (stands : (info.bytes ++ behind).drop offset = be32 value ++ rest) :
      readU32 (info.bytes ++ behind) offset = .ok value := by
    rw [readU32_ok _ offset (by omega), stands, word32_be32]
  simp only [List.mapM_cons, List.mapM_nil]
  rw [word 4 info.ssrc _ (by decide) rfl, word 8 info.ntpTimestampMsw _ (by decide) rfl,
    word 12 info.ntpTimestampLsw _ (by decide) rfl, word 16 info.rtpTimestamp _ (by decide) rfl,
    word 20 info.senderPacketCount _ (by decide) rfl,
    word 24 info.senderOctetCount _ (by decide) rfl]
  rfl

theorem sdes_chunk (ssrc : UInt32) (cname : List UInt8) : ∃ zeros, 1 ≤ zeros ∧ zeros ≤ 4 ∧
    (sdesBytes ssrc cname).drop 4 =
      be32 ssrc ++ [rtcpSdesCname, UInt8.ofNat cname.length] ++ cname ++
        List.replicate zeros 0 := by
  refine ⟨(4 + 2 + cname.length + 1 + 3) / 4 * 4 - (4 + 2 + cname.length + 1) + 1, ?_, ?_, rfl⟩
  · omega
  · omega

/-- The packet of any CNAME and any report fits, is walked to its end over its two parts, and
says what it was given. -/
theorem compound_report (cname : List UInt8) (info : RtcpSenderInfo) :
    (∀ {τ : Type} (rtp : RtpTransport) (transmit : IoVecSlice → τ × Int) (clock : Clock),
      (Rtcp.new cname).sendSr rtp transmit clock =
        .ok (transmit [compound (senderInfo rtp clock) cname])) ∧
      (compound info cname).length ≤ rtcpMaxPacketSize ∧
      (compound info cname).length % 4 = 0 ∧
      (∃ sr sdes, (∀ hdrs, Walks (compound info cname) hdrs ↔ hdrs = [sr, sdes]) ∧
        sr.packetType = rtcpSr ∧ sdes.packetType = rtcpSdes ∧ sdes.count = 1) ∧
      [4, 8, 12, 16, 20, 24].mapM (readU32 (compound info cname)) =
        .ok [info.ssrc, info.ntpTimestampMsw, info.ntpTimestampLsw, info.rtpTimestamp,
          info.senderPacketCount, info.senderOctetCount] ∧
      ∃ lengthByte zeros, lengthByte.toNat = (Rtcp.new cname).cname.length ∧ 1 ≤ zeros ∧
        zeros ≤ 4 ∧ (compound info cname).drop 32 =
          be32 info.ssrc ++ [rtcpSdesCname, lengthByte] ++ (Rtcp.new cname).cname ++
            List.replicate zeros 0 := by
  have length := length_compound info cname
  have short := length_storedCname cname
  have walked := compound_walks info (Rtcp.new cname).cname short
  obtain ⟨zeros, some, few, chunk⟩ := sdes_chunk info.ssrc (Rtcp.new cname).cname
  refine ⟨sendSr_compound cname, ?_, ?_, ⟨srHeader, sdesHeader (Rtcp.new cname).cname, ?_,
    rfl, rfl, rfl⟩, sr_words info _, UInt8.ofNat (Rtcp.new cname).cname.length, zeros, ?_, some,
    few, ?_⟩
  · rw [length, rtcpMaxPacketSize]
    omega
  · omega
  · intro hdrs
    constructor
    · intro also
      exact also.unique walked
    · rintro rfl
      exact walked
  · rw [UInt8.toNat_ofNat']
    omega
  · have behind : (compound info cname).drop (info.bytes.length + 4) =
        (sdesBytes info.ssrc (Rtcp.new cname).cname).drop 4 := List.drop_length_add_append 4
    exact behind.trans chunk

end Compy.Reports
