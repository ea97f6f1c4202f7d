import Compy.Reports.Clocks

/-!
# What the memory of a new transport is told by

`Compy_RtpTransport_new` writes every field of what `malloc` returns but the time of the
last packet.  The queries read that time, a packet that is taken writes it: a run is the
same for every content of the memory if its queries come behind such a packet.
-/

set_option autoImplicit false

namespace Compy.Reports

open CheckedBytes Compy.Rtp Compy.Rtsp
open Compy.Srtp (SendArgs)

/-! ## A new transport -/

/-- The fields of a transport with nothing known about them. -/
structure Memory where
  seqNum : UInt16
  ssrc : UInt32
  payloadTy : UInt8
  clockRate : UInt32
  packetCount : UInt32
  octetCount : UInt32
  lastRtpTimestamp : UInt32
  lastSendTimeUs : UInt64
  extData : Vector UInt8 12
  extLen : UInt16

/-- The assignments of `Compy_RtpTransport_new`. -/
def Memory.initialise (self : Memory) (rng : UInt32 × UInt32) (payloadTy : UInt8)
    (clockRate : UInt32) : Memory :=
  { self with
    ssrc := rng.1
    seqNum := rng.2.toUInt16
    payloadTy := payloadTy
    clockRate := clockRate
    packetCount := 0
    octetCount := 0
    lastRtpTimestamp := 0
    extLen := 0
    extData := Vector.replicate 12 0 }

def memoryOf (rtp : RtpTransport) : Memory where
  seqNum := rtp.seqNum
  ssrc := rtp.ssrc
  payloadTy := rtp.payloadTy
  clockRate := rtp.clockRate
  packetCount := rtp.packetCount
  octetCount := rtp.octetCount
  lastRtpTimestamp := rtp.lastRtpTimestamp
  lastSendTimeUs := rtp.lastSendTimeUs
  extData := rtp.extData
  extLen := rtp.extLen

/-- The new transport in the memory that `malloc` has found. -/
def newIn (memory : Memory) (rng : UInt32 × UInt32) (payloadTy : UInt8) (clockRate : UInt32) :
    RtpTransport := RtpTransport.new rng memory.lastSendTimeUs payloadTy clockRate

-- No other field is as it has been found.
example (memory : Memory) (rng : UInt32 × UInt32) (payloadTy : UInt8) (clockRate : UInt32) :
    memoryOf (newIn memory rng payloadTy clockRate) = memory.initialise rng payloadTy clockRate :=
  rfl

/-! ## Operations -/

inductive Operation where
  | sendPacket (args : SendArgs) (transmitted : Int)
  | setSsrc (ssrc : UInt32)
  | setExtension (element : ExtensionElement)
  | getSsrc
  | getSeq
  | getPacketCount
  | getOctetCount
  | getLastRtpTimestamp
  | getRtpTimestampNow (nowUs : UInt64)
  | sendSr (clock : Clock) (transmitted : Int)

/-- The bytes given to a transport below and its return value, or the value returned. -/
inductive Output where
  | transmitted (wire : List UInt8) (ret : Int)
  | value (number : Nat)
  | nothing
  deriving DecidableEq

def Operation.perform (rtcp : Rtcp) (self : RtpTransport) :
    Operation → Access (RtpTransport × Output)
  | .sendPacket args transmitted => do
      let (rtp, wire, ret) ← self.sendPacket (fun bufs => (bufs.flatten, transmitted)) args.ts
        args.marker args.payloadHeader args.payload args.monotonicUs
      return (rtp, .transmitted wire ret)
  | .setSsrc ssrc => .ok (self.setSsrc ssrc, .nothing)
  | .setExtension element => .ok (self.setExtension element, .nothing)
  | .getSsrc => .ok (self, .value self.getSsrc.toNat)
  | .getSeq => .ok (self, .value self.getSeq.toNat)
  | .getPacketCount => .ok (self, .value self.getPacketCount.toNat)
  | .getOctetCount => .ok (self, .value self.getOctetCount.toNat)
  | .getLastRtpTimestamp => .ok (self, .value self.getLastRtpTimestamp.toNat)
  | .getRtpTimestampNow nowUs => .ok (self, .value (self.getRtpTimestampNow nowUs).toNat)
  | .sendSr clock transmitted => do
      let (wire, ret) ← rtcp.sendSr self (fun bufs => (bufs.flatten, transmitted)) clock
      return (self, .transmitted wire ret)

def outputs (rtcp : Rtcp) : List Operation → RtpTransport → Access (List Output)
  | [], _ => .ok []
  | operation :: rest, rtp => do
      let (rtp, output) ← operation.perform rtcp rtp
      let others ← outputs rtcp rest rtp
      return output :: others

def Operation.counted : Operation → Bool
  | .sendPacket _ transmitted => transmitted != -1
  | _ => false

def Operation.queriedAt : Operation → Option UInt64
  | .getRtpTimestampNow nowUs => some nowUs
  | .sendSr clock _ => some clock.nowUs
  | _ => none

/-- No query before the first packet that is taken. -/
def queriesBehindPacket : List Operation → Bool
  | [] => true
  | operation :: rest =>
      operation.counted || (operation.queriedAt.isNone && queriesBehindPacket rest)

/-! ## One operation -/

def withSendTime (rtp : RtpTransport) (timeUs : UInt64) : RtpTransport :=
  { rtp with lastSendTimeUs := timeUs }

/-- What a query gives away of the extrapolated timestamp. -/
def Operation.answer (rtcp : Rtcp) (rtp : RtpTransport) : Operation → UInt32 → Output
  | .sendSr clock transmitted, timestamp =>
      .transmitted ({ senderInfo rtp clock with rtpTimestamp := timestamp }.bytes ++
        sdesBytes rtp.ssrc (cStr rtcp.cname)) transmitted
  | _, timestamp => .value timestamp.toNat

theorem Operation.answer_inj (rtcp : Rtcp) (rtp : RtpTransport) (operation : Operation)
    (left right : UInt32)
    (same : operation.answer rtcp rtp left = operation.answer rtcp rtp right) : left = right := by
  cases operation with
  | sendSr clock transmitted =>
      simp only [answer, Output.transmitted.injEq, and_true] at same
      have read := congrArg reportRtpTimestamp same
      rwa [RtcpSenderInfo.timestamp_bytes, RtcpSenderInfo.timestamp_bytes] at read
  | _ => exact UInt32.toNat_inj.mp (Output.value.inj same)

/-- What an operation does whatever the time of the last packet: a packet taken sets it, a
query shows it and the others do not see it. -/
inductive Effect (rtcp : Rtcp) (rtp : RtpTransport) (operation : Operation) : Prop where
  | written (counted : operation.counted = true) (next : RtpTransport) (output : Output)
      (ran : ∀ timeUs, operation.perform rtcp (withSendTime rtp timeUs) = .ok (next, output))
  | read (counted : operation.counted = false) (nowUs : UInt64)
      (queried : operation.queriedAt = some nowUs)
      (ran : ∀ timeUs, operation.perform rtcp (withSendTime rtp timeUs) =
        .ok (withSendTime rtp timeUs, operation.answer rtcp rtp
          ((withSendTime rtp timeUs).getRtpTimestampNow nowUs)))
  | blind (counted : operation.counted = false) (queried : operation.queriedAt = none)
      (next : RtpTransport) (output : Output) (rate : next.clockRate = rtp.clockRate)
      (ran : ∀ timeUs, operation.perform rtcp (withSendTime rtp timeUs) =
        .ok (withSendTime next timeUs, output))

theorem Operation.effect (rtcp : Rtcp) (rtp : RtpTransport) (operation : Operation) :
    Effect rtcp rtp operation := by
  cases operation with
  | sendPacket args transmitted =>
      have sent (timeUs : UInt64) := (withSendTime rtp timeUs).sendPacket_eq
        (fun bufs => (bufs.flatten, transmitted)) args.ts args.marker args.payloadHeader
        args.payload args.monotonicUs _ _ rfl
      by_cases failed : transmitted = -1
      · refine .blind ?_ rfl rtp (.transmitted ([rtp.headerBytes args.ts args.marker,
          args.payloadHeader, args.payload].flatten) transmitted) rfl fun timeUs => ?_
        · simp [counted, failed]
        · rw [perform, sent timeUs, if_pos failed]
          rfl
      · refine .written ?_ (rtp.counting args.ts
          (args.payloadHeader.length + args.payload.length) args.monotonicUs) (.transmitted
          ([rtp.headerBytes args.ts args.marker, args.payloadHeader, args.payload].flatten)
          transmitted) fun timeUs => ?_
        · simp [counted, failed]
        · rw [perform, sent timeUs, if_neg failed]
          rfl
  | getRtpTimestampNow nowUs => exact .read rfl nowUs rfl fun _ => rfl
  | sendSr clock transmitted =>
      refine .read rfl clock.nowUs rfl fun timeUs => ?_
      rw [perform, rtcp.sendSr_ok]
      rfl
  | setSsrc ssrc => exact .blind rfl rfl (rtp.setSsrc ssrc) .nothing rfl fun _ => rfl
  | setExtension element =>
      exact .blind rfl rfl (rtp.setExtension element) .nothing rfl fun _ => rfl
  | getSsrc => exact .blind rfl rfl rtp (.value rtp.getSsrc.toNat) rfl fun _ => rfl
  | getSeq => exact .blind rfl rfl rtp (.value rtp.getSeq.toNat) rfl fun _ => rfl
  | getPacketCount => exact .blind rfl rfl rtp (.value rtp.getPacketCount.toNat) rfl fun _ => rfl
  | getOctetCount => exact .blind rfl rfl rtp (.value rtp.getOctetCount.toNat) rfl fun _ => rfl
  | getLastRtpTimestamp =>
      exact .blind rfl rfl rtp (.value rtp.getLastRtpTimestamp.toNat) rfl fun _ => rfl

/-! ## Runs -/

theorem outputs_cons {rtcp : Rtcp} {operation : Operation} {rest : List Operation}
    {rtp next : RtpTransport} {output : Output} {others : List Output}
    (ran : operation.perform rtcp rtp = .ok (next, output))
    (all : outputs rtcp rest next = .ok others) :
    outputs rtcp (operation :: rest) rtp = .ok (output :: others) := by
  rw [outputs, ran, ok_bind]
  dsimp only
  rw [all]
  rfl

theorem outputs_ok (rtcp : Rtcp) (operations : List Operation) (rtp : RtpTransport) :
    ∃ outs, outputs rtcp operations rtp = .ok outs := by
  induction operations generalizing rtp with
  | nil => exact ⟨[], rfl⟩
  | cons operation rest ih =>
      obtain ⟨next, output, ran⟩ : ∃ next output, operation.perform rtcp rtp =
          .ok (next, output) := by
        cases operation.effect rtcp rtp with
        | written counted next output ran => exact ⟨_, _, ran rtp.lastSendTimeUs⟩
        | read counted nowUs queried ran => exact ⟨_, _, ran rtp.lastSendTimeUs⟩
        | blind counted queried next output rate ran => exact ⟨_, _, ran rtp.lastSendTimeUs⟩
      obtain ⟨others, all⟩ := ih next
      exact ⟨output :: others, outputs_cons ran all⟩

theorem getRtpTimestampNow_stopped (rtp : RtpTransport) (nowUs : UInt64)
    (stopped : rtp.clockRate = 0) : rtp.getRtpTimestampNow nowUs = rtp.lastRtpTimestamp := by
  unfold RtpTransport.getRtpTimestampNow
  split
  · rfl
  · simp [stopped]

theorem exists_ticks (clockRate : UInt32) (nowUs : UInt64) (running : clockRate ≠ 0) :
    ∃ agoUs : UInt64, nowUs - agoUs ≠ 0 ∧
      (agoUs * clockRate.toUInt64 / 1000000).toUInt32 ≠ 0 := by
  have bound := clockRate.toNat_lt
  have nonzero : clockRate.toNat ≠ 0 := fun zero => running (UInt32.toNat_inj.mp zero)
  have ticks (agoUs : UInt64) (small : agoUs.toNat * clockRate.toNat < 2 ^ 64) :
      (agoUs * clockRate.toUInt64 / 1000000).toUInt32.toNat =
        agoUs.toNat * clockRate.toNat / 1000000 % 2 ^ 32 := by
    rw [UInt64.toNat_toUInt32, UInt64.toNat_div, UInt64.toNat_mul, UInt32.toNat_toUInt64,
      Nat.mod_eq_of_lt small]
    rfl
  have one : 1000000 * clockRate.toNat / 1000000 % 2 ^ 32 = clockRate.toNat := by omega
  have three : 3000000 * clockRate.toNat / 1000000 % 2 ^ 32 ≠ 0 := by
    rw [show 3000000 * clockRate.toNat / 1000000 = 3 * clockRate.toNat by omega]
    intro wrapped
    -- Three and the modulus have no factor in common.
    have divides : 2 ^ 32 ∣ clockRate.toNat :=
      Nat.Coprime.dvd_of_dvd_mul_left (by decide) (Nat.dvd_of_mod_eq_zero wrapped)
    exact absurd (Nat.le_of_dvd (Nat.pos_of_ne_zero nonzero) divides) (Nat.not_le.mpr bound)
  have small : 1000000 * clockRate.toNat < 2 ^ 64 := by omega
  have larger : 3000000 * clockRate.toNat < 2 ^ 64 := by omega
  by_cases second : nowUs = 1000000
  · refine ⟨3000000, by rw [second]; decide, fun none => three ?_⟩
    have zero := ticks 3000000 larger
    rw [none] at zero
    exact zero.symm
  · refine ⟨1000000, fun zero => second ?_, fun none => nonzero ?_⟩
    · exact (UInt64.sub_eq_iff_eq_add.mp zero).trans (UInt64.zero_add _)
    · have zero := ticks 1000000 small
      rw [none] at zero
      exact one.symm.trans zero.symm

theorem exists_other_time (rtp : RtpTransport) (nowUs : UInt64) (running : rtp.clockRate ≠ 0) :
    ∃ timeUs, (withSendTime rtp timeUs).getRtpTimestampNow nowUs ≠
      (withSendTime rtp 0).getRtpTimestampNow nowUs := by
  obtain ⟨agoUs, sent, ticks⟩ := exists_ticks rtp.clockRate nowUs running
  refine ⟨nowUs - agoUs, fun same => ticks ?_⟩
  have elapsed : nowUs - (nowUs - agoUs) = agoUs := by
    rw [UInt64.sub_eq_iff_eq_add, UInt64.add_comm, UInt64.sub_add_cancel]
  simpa [RtpTransport.getRtpTimestampNow, withSendTime, sent, elapsed] using same

/-- Behind a packet that is taken, and without a clock that runs, the memory is not seen. -/
theorem outputs_settled (rtcp : Rtcp) (operations : List Operation) (rtp : RtpTransport)
    (settled : rtp.clockRate = 0 ∨ queriesBehindPacket operations = true) :
    ∃ outs, ∀ timeUs, outputs rtcp operations (withSendTime rtp timeUs) = .ok outs := by
  induction operations generalizing rtp with
  | nil => exact ⟨[], fun _ => rfl⟩
  | cons operation rest ih =>
      simp only [queriesBehindPacket] at settled
      cases operation.effect rtcp rtp with
      | written counted next output ran =>
          obtain ⟨others, all⟩ := outputs_ok rtcp rest next
          exact ⟨output :: others, fun timeUs => outputs_cons (ran timeUs) all⟩
      | read counted nowUs queried ran =>
          have stopped : rtp.clockRate = 0 := by simpa [counted, queried] using settled
          obtain ⟨others, all⟩ := ih rtp (Or.inl stopped)
          refine ⟨operation.answer rtcp rtp rtp.lastRtpTimestamp :: others, fun timeUs => ?_⟩
          have shown := ran timeUs
          rw [getRtpTimestampNow_stopped (withSendTime rtp timeUs) nowUs stopped] at shown
          exact outputs_cons shown (all timeUs)
      | blind counted queried next output rate ran =>
          obtain ⟨others, all⟩ := ih next (by simpa [counted, queried, rate] using settled)
          exact ⟨output :: others, fun timeUs => outputs_cons (ran timeUs) (all timeUs)⟩

theorem outputs_differ (rtcp : Rtcp) (operations : List Operation) (rtp : RtpTransport)
    (running : rtp.clockRate ≠ 0) (early : queriesBehindPacket operations = false) :
    ∃ timeUs, outputs rtcp operations (withSendTime rtp timeUs) ≠
      outputs rtcp operations (withSendTime rtp 0) := by
  induction operations generalizing rtp with
  | nil => simp [queriesBehindPacket] at early
  | cons operation rest ih =>
      simp only [queriesBehindPacket] at early
      cases operation.effect rtcp rtp with
      | written counted next output ran => simp [counted] at early
      | read counted nowUs queried ran =>
          obtain ⟨timeUs, other⟩ := exists_other_time rtp nowUs running
          refine ⟨timeUs, fun same => other ?_⟩
          obtain ⟨left, leftRan⟩ := outputs_ok rtcp rest (withSendTime rtp timeUs)
          obtain ⟨right, rightRan⟩ := outputs_ok rtcp rest (withSendTime rtp 0)
          rw [outputs_cons (ran timeUs) leftRan, outputs_cons (ran 0) rightRan] at same
          have heads := (List.cons.inj (Except.ok.inj same)).1
          exact operation.answer_inj rtcp rtp _ _ heads
      | blind counted queried next output rate ran =>
          obtain ⟨timeUs, other⟩ := ih next (rate ▸ running)
            (by simpa [counted, queried] using early)
          refine ⟨timeUs, fun same => other ?_⟩
          obtain ⟨left, leftRan⟩ := outputs_ok rtcp rest (withSendTime next timeUs)
          obtain ⟨right, rightRan⟩ := outputs_ok rtcp rest (withSendTime next 0)
          rw [outputs_cons (ran timeUs) leftRan, outputs_cons (ran 0) rightRan] at same
          rw [leftRan, rightRan, (List.cons.inj (Except.ok.inj same)).2]

/-- Two runs over transports in any two memories give the same outputs. -/
def IndependentOfMemory (rng : UInt32 × UInt32) (payloadTy : UInt8) (clockRate : UInt32)
    (cname : List UInt8) (operations : List Operation) : Prop :=
  ∀ left right : Memory, ∃ outs,
    outputs (Rtcp.new cname) operations (newIn left rng payloadTy clockRate) = .ok outs ∧
      outputs (Rtcp.new cname) operations (newIn right rng payloadTy clockRate) = .ok outs

theorem IndependentOfMemory.settled {rng : UInt32 × UInt32} {payloadTy : UInt8}
    {clockRate : UInt32} {cname : List UInt8} {operations : List Operation}
    (independent : IndependentOfMemory rng payloadTy clockRate cname operations) :
    clockRate = 0 ∨ queriesBehindPacket operations = true := by
  by_contra neither
  rw [not_or, Bool.not_eq_true] at neither
  obtain ⟨timeUs, other⟩ := outputs_differ (Rtcp.new cname) operations
    (RtpTransport.new rng 0 payloadTy clockRate) neither.1 neither.2
  obtain ⟨outs, left, right⟩ := independent
    (memoryOf (RtpTransport.new rng timeUs payloadTy clockRate))
    (memoryOf (RtpTransport.new rng 0 payloadTy clockRate))
  exact other (left.trans right.symm)

/-- The memory stays unseen exactly where a packet is taken before the first query, or where
the clock rate is zero. -/
theorem independentOfMemory_iff (rng : UInt32 × UInt32) (payloadTy : UInt8) (clockRate : UInt32)
    (cname : List UInt8) (operations : List Operation) :
    IndependentOfMemory rng payloadTy clockRate cname operations ↔
      clockRate = 0 ∨ queriesBehindPacket operations = true := by
  constructor
  · exact IndependentOfMemory.settled
  · intro settled left right
    obtain ⟨outs, all⟩ := outputs_settled (Rtcp.new cname) operations
      (RtpTransport.new rng 0 payloadTy clockRate) settled
    exact ⟨outs, all left.lastSendTimeUs, all right.lastSendTimeUs⟩

/-- A report before the first packet. -/
theorem early_report_leaks :
    ¬ IndependentOfMemory (1, 2) 96 90000 [] [.sendSr ⟨0, 5, 0, 5000000⟩ 0] := by
  intro independent
  exact absurd independent.settled (by decide)

example : (RtpTransport.new (1, 2) 4000000 96 90000).getRtpTimestampNow 5000000 = 90000 ∧
    (RtpTransport.new (1, 2) 0 96 90000).getRtpTimestampNow 5000000 = 0 := by decide

end Compy.Reports
