import Compy.Library.AttemptLog
import Compy.Reports.SenderReport
import Compy.Srtp.SenderPacket

/-!
# An RTP transport and the RTCP session that reports on it

`rtcp.c` as far as it sends reports.  The two share the RTP transport: `send_packet`
counts what the transport below has taken, `send_sr` reads the counters.  A run is any
interleaving of the two over transports that answer what they like, and its log is what
they have been handed.
-/

set_option autoImplicit false

namespace Compy.Reports

open AttemptLog BigEndian CheckedBytes Compy.Rtp Compy.Rtsp
open Compy.Srtp (SendArgs packetOf packetSeq)

/-- `strncpy` keeps what fits in `cname[256]` with its NUL. -/
structure Rtcp where
  cname : List UInt8
  cname_fits : (cStr cname).length ≤ 255

def Rtcp.new (cname : List UInt8) : Rtcp where
  cname := (cStr cname).take 255
  cname_fits := by
    have whole := (List.takeWhile_prefix (l := (cStr cname).take 255) (· != 0)).length_le
    exact Nat.le_trans whole (List.length_take_le 255 (cStr cname))

/-- The readings of the two clocks in `send_sr`, the first with the offset of the wall
clock that `ntp_init_once` has found. -/
structure Clock where
  monoToNtpSec : Int64
  tvSec : Int64
  tvNsec : UInt64
  nowUs : UInt64

def Clock.ntpTimestamp (self : Clock) : UInt32 × UInt32 :=
  ((self.tvSec + self.monoToNtpSec).toUInt64.toUInt32,
    ((self.tvNsec <<< 32) / 1000000000).toUInt32)

def senderInfo (rtp : RtpTransport) (clock : Clock) : RtcpSenderInfo where
  ssrc := rtp.ssrc
  ntpTimestampMsw := clock.ntpTimestamp.1
  ntpTimestampLsw := clock.ntpTimestamp.2
  rtpTimestamp := rtp.getRtpTimestampNow clock.nowUs
  senderPacketCount := rtp.packetCount
  senderOctetCount := rtp.octetCount

def Rtcp.sendSr {τ : Type} (self : Rtcp) (rtp : RtpTransport) (transmit : IoVecSlice → τ × Int)
    (clock : Clock) : Access (τ × Int) := do
  let buffer ← RtcpSenderReport.serialize (senderInfo rtp clock) self.cname rtcpMaxPacketSize
  return transmit [buffer]

theorem Rtcp.sendSr_ok (self : Rtcp) (rtp : RtpTransport) (clock : Clock) (transmitted : Int) :
    self.sendSr rtp (fun bufs => (bufs.flatten, transmitted)) clock =
      .ok ((senderInfo rtp clock).bytes ++ sdesBytes rtp.ssrc (cStr self.cname), transmitted) := by
  have serialized := RtcpSenderReport.serialize_ok (senderInfo rtp clock) self.cname
    self.cname_fits
  simp only [Rtcp.sendSr, serialized, ok_bind, pure_eq_ok, List.flatten_singleton]
  rfl

/-! ## Runs -/

inductive SessionCall where
  | sendPacket (args : SendArgs) (transmitted : Int)
  | sendSr (clock : Clock) (transmitted : Int)

/-- What a call has handed to its transport and returned. -/
inductive Event where
  | packet (before after : RtpTransport) (args : SendArgs) (wire : List UInt8) (ret : Int)
  | report (wire : List UInt8) (ret : Int)

def Event.counted : Event → Bool
  | .packet _ _ _ _ ret => ret != -1
  | .report _ _ => false

def Event.wire : Event → List UInt8
  | .packet _ _ _ wire _ => wire
  | .report wire _ => wire

def Event.octets : Event → Nat
  | .packet _ _ args _ _ => args.payloadHeader.length + args.payload.length
  | .report _ _ => 0

def sentPackets (log : List Event) : List Event := log.filter Event.counted

def sentOctets (log : List Event) : Nat := ((sentPackets log).map Event.octets).sum

structure Session where
  rtp : RtpTransport
  rtcp : Rtcp
  log : List Event

def Session.call (self : Session) : SessionCall → Access Session
  | .sendPacket args transmitted => do
      let (rtp, wire, ret) ← self.rtp.sendPacket (fun bufs => (bufs.flatten, transmitted))
        args.ts args.marker args.payloadHeader args.payload args.monotonicUs
      return { self with rtp := rtp, log := self.log ++ [.packet self.rtp rtp args wire ret] }
  | .sendSr clock transmitted => do
      let (wire, ret) ← self.rtcp.sendSr self.rtp (fun bufs => (bufs.flatten, transmitted)) clock
      return { self with log := self.log ++ [.report wire ret] }

def Session.run : List SessionCall → Session → Access Session
  | [], session => .ok session
  | call :: rest, session => do
      let next ← session.call call
      Session.run rest next

/-! ## The counters and the log -/

theorem sentPackets_append (log : List Event) (event : Event) :
    sentPackets (log ++ [event]) = sentPackets log ++ if event.counted then [event] else [] := by
  cases counted : event.counted <;> simp [sentPackets, List.filter_append, counted]

theorem sentOctets_append (log : List Event) (event : Event) :
    sentOctets (log ++ [event]) =
      sentOctets log + if event.counted then event.octets else 0 := by
  rw [sentOctets, sentPackets_append]
  split <;> simp [sentOctets]

/-- The transport as its history makes it. -/
structure Counts (first : RtpTransport) (log : List Event) (rtp : RtpTransport) : Prop where
  ssrc : rtp.ssrc = first.ssrc
  seqNum : rtp.seqNum = first.seqNum + UInt16.ofNat (sentPackets log).length
  packetCount : rtp.packetCount = UInt32.ofNat (sentPackets log).length
  octetCount : rtp.octetCount = UInt32.ofNat (sentOctets log)

def Agrees (first : RtpTransport) (earlier : List Event) : Event → Prop
  | .packet before after args wire ret =>
      Counts first earlier before ∧ wire = packetOf before args ∧ (ret = -1 → after = before)
  | .report wire _ =>
      reportSsrc wire = first.ssrc ∧
        reportPacketCount wire = UInt32.ofNat (sentPackets earlier).length ∧
        reportOctetCount wire = UInt32.ofNat (sentOctets earlier)

theorem Agrees.packetSeq {first : RtpTransport} {earlier : List Event} {event : Event}
    (agrees : Agrees first earlier event) (counted : event.counted = true) :
    packetSeq event.wire = first.seqNum + UInt16.ofNat (sentPackets earlier).length := by
  cases event with
  | packet before after args wire ret =>
      obtain ⟨counts, rfl, _⟩ := agrees
      rw [Event.wire, Compy.Srtp.packetSeq_packetOf, counts.seqNum]
  | report wire ret => simp [Event.counted] at counted

structure Session.Sound (first : RtpTransport) (session : Session) : Prop where
  counts : Counts first session.log session.rtp
  agrees : Recorded (Agrees first) session.log

theorem Session.start_sound (first : RtpTransport) (rtcp : Rtcp) (packets : first.packetCount = 0)
    (octets : first.octetCount = 0) : Session.Sound first ⟨first, rtcp, []⟩ where
  counts := ⟨rfl, (UInt16.add_zero _).symm, packets, octets⟩
  agrees := recorded_nil _

theorem Session.sendPacket_sound (first : RtpTransport) (self : Session)
    (sound : self.Sound first) (args : SendArgs) (transmitted : Int) :
    ∃ next, self.call (.sendPacket args transmitted) = .ok next ∧ next.Sound first := by
  have flat : List.flatten [self.rtp.headerBytes args.ts args.marker, args.payloadHeader,
      args.payload] = packetOf self.rtp args := by
    simp [packetOf]
  have ran := self.rtp.sendPacket_eq (fun bufs => (bufs.flatten, transmitted)) args.ts args.marker
    args.payloadHeader args.payload args.monotonicUs _ _ rfl
  obtain ⟨ssrc, seqNum, packetCount, octetCount⟩ := sound.counts
  rw [Session.call, ran, ok_bind, flat]
  by_cases failed : transmitted = -1
  · rw [if_pos failed]
    refine ⟨_, rfl, ⟨ssrc, ?_, ?_, ?_⟩, sound.agrees.append ⟨sound.counts, rfl, fun _ => rfl⟩⟩
    · simpa [sentPackets_append, Event.counted, failed] using seqNum
    · simpa [sentPackets_append, Event.counted, failed] using packetCount
    · simpa [sentOctets_append, Event.counted, failed] using octetCount
  · rw [if_neg failed]
    refine ⟨_, rfl, ⟨ssrc, ?_, ?_, ?_⟩, sound.agrees.append ⟨sound.counts, rfl, ?_⟩⟩
    · simp [sentPackets_append, Event.counted, failed, RtpTransport.counting, seqNum,
        UInt16.add_assoc]
    · simp [sentPackets_append, Event.counted, failed, RtpTransport.counting, packetCount]
    · simp [sentOctets_append, Event.counted, Event.octets, failed, RtpTransport.counting,
        octetCount]
    · exact fun same => absurd same failed

theorem Session.sendSr_sound (first : RtpTransport) (self : Session) (sound : self.Sound first)
    (clock : Clock) (transmitted : Int) :
    ∃ next, self.call (.sendSr clock transmitted) = .ok next ∧ next.Sound first := by
  obtain ⟨ssrc, seqNum, packetCount, octetCount⟩ := sound.counts
  obtain ⟨own, packets, octets⟩ := (senderInfo self.rtp clock).read_bytes
    (sdesBytes self.rtp.ssrc (cStr self.rtcp.cname))
  simp only [Session.call, self.rtcp.sendSr_ok, ok_bind, pure_eq_ok]
  refine ⟨_, rfl, ⟨ssrc, ?_, ?_, ?_⟩, sound.agrees.append ⟨?_, ?_, ?_⟩⟩
  · simpa [sentPackets_append, Event.counted] using seqNum
  · simpa [sentPackets_append, Event.counted] using packetCount
  · simpa [sentOctets_append, Event.counted] using octetCount
  · exact own.trans ssrc
  · exact packets.trans packetCount
  · exact octets.trans octetCount

theorem Session.run_sound (first : RtpTransport) (calls : List SessionCall) (self : Session)
    (sound : self.Sound first) :
    ∃ final, Session.run calls self = .ok final ∧ final.Sound first := by
  induction calls generalizing self with
  | nil => exact ⟨self, rfl, sound⟩
  | cons call rest ih =>
      obtain ⟨next, called, kept⟩ :
          ∃ next, self.call call = .ok next ∧ next.Sound first := by
        cases call with
        | sendPacket args transmitted => exact self.sendPacket_sound first sound args transmitted
        | sendSr clock transmitted => exact self.sendSr_sound first sound clock transmitted
      obtain ⟨final, ran, done⟩ := ih next kept
      refine ⟨final, ?_, done⟩
      rw [Session.run, called, ok_bind, ran]

/-- The packets sent are numbered one after the other, a failed send leaves the
transport alone, and every report has counted the packets before it. -/
theorem reports_count_packets (rng : UInt32 × UInt32) (mallocedLastSendTimeUs : UInt64)
    (payloadTy : UInt8) (clockRate : UInt32) (cname : List UInt8) (calls : List SessionCall) :
    ∃ session, Session.run calls ⟨RtpTransport.new rng mallocedLastSendTimeUs payloadTy clockRate,
        Rtcp.new cname, []⟩ = .ok session ∧
      (∀ k (inside : k < (sentPackets session.log).length),
        packetSeq (sentPackets session.log)[k].wire = rng.2.toUInt16 + UInt16.ofNat k) ∧
      (∀ before after args wire,
        Event.packet before after args wire (-1) ∈ session.log → after = before) ∧
      ∀ earlier wire ret later, session.log = earlier ++ .report wire ret :: later →
        reportSsrc wire = rng.1 ∧
          reportPacketCount wire = UInt32.ofNat (sentPackets earlier).length ∧
          reportOctetCount wire = UInt32.ofNat (sentOctets earlier) := by
  obtain ⟨session, ran, _, agrees⟩ := Session.run_sound
    (RtpTransport.new rng mallocedLastSendTimeUs payloadTy clockRate) calls
    ⟨_, Rtcp.new cname, []⟩ (Session.start_sound _ (Rtcp.new cname) rfl rfl)
  refine ⟨session, ran, ?_, ?_, ?_⟩
  · intro k inside
    obtain ⟨earlier, later, split_, count, counted⟩ :=
      split_of_filter Event.counted session.log k inside
    have number := (agrees earlier _ later split_).packetSeq counted
    rw [sentPackets, count] at number
    exact number
  · intro before after args wire member
    obtain ⟨earlier, later, split_⟩ := List.append_of_mem member
    exact (agrees earlier _ later split_).2.2 rfl
  · intro earlier wire ret later split_
    exact agrees earlier _ later split_

end Compy.Reports
