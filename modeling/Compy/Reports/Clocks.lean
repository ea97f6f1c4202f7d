import Compy.Reports.Session

/-!
# The two RTP clocks

A packet takes its timestamp from the system clock, in whole kilohertz of the clock rate; a
report extrapolates the timestamp of the last packet with the rate in hertz.
-/

set_option autoImplicit false

namespace Compy.Reports

open CheckedBytes Compy.Rtp Compy.Rtsp

/-! ## What the formulas give -/

/-- The double product as the exact rational, truncated. -/
def exactProduct (us : UInt64) (clockRateKHz : UInt32) : UInt32 :=
  UInt32.ofNat (us.toNat * clockRateKHz.toNat / 1000)

/-- A packet that is sent at a time of the system clock. -/
def sysClock (timeUs : UInt64) : RtpTimestamp := .sysClockUs timeUs exactProduct

theorem div_product (time rate : Nat) :
    time / 1000 * rate + time % 1000 * rate / 1000 = time * rate / 1000 := by
  have whole := Nat.div_add_mod time 1000
  have product : time * rate = time % 1000 * rate + 1000 * (time / 1000 * rate) := by
    calc time * rate = (1000 * (time / 1000) + time % 1000) * rate := by rw [whole]
      _ = time % 1000 * rate + 1000 * (time / 1000 * rate) := by ring
  rw [product, Nat.add_mul_div_left _ _ (by decide), Nat.add_comm]

theorem toNat_computeTimestamp (timeUs : UInt64) (clockRate : UInt32) :
    (computeTimestamp (sysClock timeUs) clockRate).toNat =
      timeUs.toNat * (clockRate.toNat / 1000) / 1000 % 2 ^ 32 := by
  have ms : ((timeUs - timeUs % 1000) / 1000).toNat = timeUs.toNat / 1000 := by
    have below : timeUs % 1000 ≤ timeUs := UInt64.le_iff_toNat_le.mpr (by
      rw [UInt64.toNat_mod]
      exact Nat.mod_le _ _)
    rw [UInt64.toNat_div, UInt64.toNat_sub_of_le _ _ below, UInt64.toNat_mod]
    simp only [UInt64.reduceToNat]
    omega
  have product := div_product timeUs.toNat (clockRate.toNat / 1000)
  simp only [sysClock, computeTimestamp, exactProduct, UInt64.toNat_toUInt32, UInt64.toNat_add,
    UInt64.toNat_mul, ms, UInt32.toNat_toUInt64, UInt32.toNat_div, UInt64.toNat_mod,
    UInt32.toNat_ofNat']
  simp only [UInt32.reduceToNat, UInt64.reduceToNat]
  rw [← product]
  generalize timeUs.toNat / 1000 * (clockRate.toNat / 1000) = front
  generalize timeUs.toNat % 1000 * (clockRate.toNat / 1000) / 1000 = back
  omega

theorem toNat_getRtpTimestampNow (rtp : RtpTransport) (elapsedUs : UInt64)
    (sent : rtp.lastSendTimeUs ≠ 0) (small : elapsedUs.toNat * rtp.clockRate.toNat < 2 ^ 64) :
    (rtp.getRtpTimestampNow (rtp.lastSendTimeUs + elapsedUs)).toNat =
      (rtp.lastRtpTimestamp.toNat + elapsedUs.toNat * rtp.clockRate.toNat / 1000000) % 2 ^ 32 := by
  have elapsed : rtp.lastSendTimeUs + elapsedUs - rtp.lastSendTimeUs = elapsedUs := by
    rw [UInt64.add_comm, UInt64.add_sub_cancel]
  rw [RtpTransport.getRtpTimestampNow, if_neg sent]
  simp only [elapsed, UInt32.toNat_add, UInt64.toNat_toUInt32, UInt64.toNat_div, UInt64.toNat_mul,
    UInt32.toNat_toUInt64, Nat.mod_eq_of_lt small]
  simp only [UInt64.reduceToNat, Nat.add_mod_mod]

/-! ## The clocks of a run -/

/-- At most one tick apart, modulo `2 ^ 32`. -/
def WithinOne (left right : UInt32) : Prop := left = right ∨ left + 1 = right ∨ right + 1 = left

instance (left right : UInt32) : Decidable (WithinOne left right) :=
  inferInstanceAs (Decidable (_ ∨ _))

/-- A packet of the system time `timeUs` has been taken at the reading `monotonicUs`. -/
def SentAt (before : RtpTransport) (timeUs monotonicUs : UInt64) (after : RtpTransport) : Prop :=
  ∃ (transmit : IoVecSlice → List UInt8 × Int) (marker : Bool) (payloadHeader payload : List UInt8)
    (out : List UInt8) (ret : Int), before.sendPacket transmit (sysClock timeUs) marker
      payloadHeader payload monotonicUs = .ok (after, out, ret) ∧ ret ≠ -1

theorem SentAt.fields {before after : RtpTransport} {timeUs monotonicUs : UInt64}
    (sent : SentAt before timeUs monotonicUs after) :
    after.lastRtpTimestamp = computeTimestamp (sysClock timeUs) before.clockRate ∧
      after.lastSendTimeUs = monotonicUs ∧ after.clockRate = before.clockRate := by
  obtain ⟨transmit, marker, payloadHeader, payload, out, ret, ran, taken⟩ := sent
  rw [RtpTransport.sendPacket_eq _ _ _ _ _ _ _ _ _ rfl] at ran
  cases ran
  rw [if_neg taken]
  exact ⟨rfl, rfl, rfl⟩

theorem sentAt_counting (before : RtpTransport) (timeUs monotonicUs : UInt64) :
    SentAt before timeUs monotonicUs (before.counting (sysClock timeUs) 0 monotonicUs) := by
  have ran := before.sendPacket_eq (fun bufs => (bufs.flatten, 0)) (sysClock timeUs) false [] []
    monotonicUs _ _ rfl
  rw [if_neg (by decide)] at ran
  exact ⟨_, _, _, _, _, _, ran, by decide⟩

/-- Whenever a report follows a packet, the timestamp in it is within one tick of the one
that a packet would have. -/
def ClocksAgree (clockRate : UInt32) (monotonicUs : UInt64) : Prop :=
  ∀ (before after : RtpTransport) (timeUs elapsedUs : UInt64), before.clockRate = clockRate →
    SentAt before timeUs monotonicUs after → timeUs.toNat + elapsedUs.toNat < 2 ^ 64 →
    elapsedUs.toNat * clockRate.toNat < 2 ^ 64 →
    WithinOne (after.getRtpTimestampNow (monotonicUs + elapsedUs))
        (computeTimestamp (sysClock (timeUs + elapsedUs)) clockRate) ∧
      ∀ (rtcp : Rtcp) (clock : Clock) (transmitted : Int), clock.nowUs = monotonicUs + elapsedUs →
        ∃ report, rtcp.sendSr after (fun bufs => (bufs.flatten, transmitted)) clock =
            .ok (report, transmitted) ∧
          reportRtpTimestamp report = after.getRtpTimestampNow (monotonicUs + elapsedUs)

theorem report_timestamp (rtcp : Rtcp) (rtp : RtpTransport) (clock : Clock) (transmitted : Int) :
    ∃ report, rtcp.sendSr rtp (fun bufs => (bufs.flatten, transmitted)) clock =
        .ok (report, transmitted) ∧
      reportRtpTimestamp report = rtp.getRtpTimestampNow clock.nowUs :=
  ⟨_, rtcp.sendSr_ok rtp clock transmitted, RtcpSenderInfo.timestamp_bytes _ _⟩

/-- Where the rate is one in kilohertz, both formulas round the same product. -/
theorem withinOne_of_kilohertz (timeUs elapsedUs : UInt64) (clockRate now : UInt32)
    (sum : timeUs.toNat + elapsedUs.toNat < 2 ^ 64) (whole : clockRate.toNat % 1000 = 0)
    (extrapolated : now.toNat =
      ((computeTimestamp (sysClock timeUs) clockRate).toNat +
        elapsedUs.toNat * clockRate.toNat / 1000000) % 2 ^ 32) :
    WithinOne now (computeTimestamp (sysClock (timeUs + elapsedUs)) clockRate) := by
  have target := toNat_computeTimestamp (timeUs + elapsedUs) clockRate
  have elapsed : elapsedUs.toNat * clockRate.toNat / 1000000 =
      elapsedUs.toNat * (clockRate.toNat / 1000) / 1000 := by
    have rate : clockRate.toNat = 1000 * (clockRate.toNat / 1000) := by omega
    calc elapsedUs.toNat * clockRate.toNat / 1000000 =
        1000 * (elapsedUs.toNat * (clockRate.toNat / 1000)) / (1000 * 1000) := by
          rw [Nat.mul_left_comm, ← rate]
      _ = elapsedUs.toNat * (clockRate.toNat / 1000) / 1000 := Nat.mul_div_mul_left _ _ (by decide)
  rw [UInt64.toNat_add, Nat.mod_eq_of_lt sum, Nat.add_mul] at target
  rw [toNat_computeTimestamp, elapsed] at extrapolated
  rw [Nat.add_div (by decide)] at target
  generalize timeUs.toNat * (clockRate.toNat / 1000) / 1000 = front at target extrapolated
  generalize elapsedUs.toNat * (clockRate.toNat / 1000) / 1000 = back at target extrapolated
  split at target
  · refine Or.inr (Or.inl (UInt32.toNat_inj.mp ?_))
    rw [UInt32.toNat_add, target, extrapolated]
    simp only [UInt32.reduceToNat, Nat.mod_add_mod]
  · refine Or.inl (UInt32.toNat_inj.mp ?_)
    rw [target, extrapolated, Nat.mod_add_mod, Nat.add_zero]

/-- A reading of 0 stands for "no packet yet": nothing is extrapolated then. -/
theorem getRtpTimestampNow_unsent (rtp : RtpTransport) (nowUs : UInt64)
    (unsent : rtp.lastSendTimeUs = 0) : rtp.getRtpTimestampNow nowUs = rtp.lastRtpTimestamp :=
  if_pos unsent

theorem ClocksAgree.fromZero {clockRate : UInt32} {monotonicUs : UInt64}
    (agree : ClocksAgree clockRate monotonicUs) (elapsedUs : UInt64)
    (small : elapsedUs.toNat * clockRate.toNat < 2 ^ 64) :
    ∃ now : UInt32, now.toNat = (if monotonicUs = 0 then 0
        else elapsedUs.toNat * clockRate.toNat / 1000000) % 2 ^ 32 ∧
      ∃ target : UInt32, target.toNat =
          elapsedUs.toNat * (clockRate.toNat / 1000) / 1000 % 2 ^ 32 ∧ WithinOne now target := by
  have sent := sentAt_counting (RtpTransport.new (0, 0) 0 0 clockRate) 0 monotonicUs
  generalize RtpTransport.counting _ _ _ _ = after at sent
  obtain ⟨last, time, kept⟩ := sent.fields
  have start := toNat_computeTimestamp 0 clockRate
  have target := toNat_computeTimestamp (0 + elapsedUs) clockRate
  rw [UInt64.toNat_zero, Nat.zero_mul, Nat.zero_div] at start
  rw [UInt64.zero_add] at target
  have sum : (0 : UInt64).toNat + elapsedUs.toNat < 2 ^ 64 := by
    rw [UInt64.toNat_zero, Nat.zero_add]
    exact elapsedUs.toNat_lt
  have within := (agree _ after 0 elapsedUs rfl sent sum small).1
  rw [UInt64.zero_add] at within
  refine ⟨_, ?_, _, target, within⟩
  split
  · rename_i unread
    rw [getRtpTimestampNow_unsent after _ (time.trans unread), last]
    exact start
  · rename_i read
    have now := toNat_getRtpTimestampNow after elapsedUs (time.symm ▸ read)
      (by rw [kept]; exact small)
    rw [time, last, kept] at now
    rw [now, show (computeTimestamp (sysClock 0)
      (RtpTransport.new (0, 0) 0 0 clockRate).clockRate).toNat = 0 from start, Nat.zero_add]
    rfl

/-- Three seconds on, it is `3 * clockRate` against `3000 * (clockRate / 1000)`. -/
theorem ClocksAgree.kilohertz {clockRate : UInt32} {monotonicUs : UInt64}
    (agree : ClocksAgree clockRate monotonicUs) (read : monotonicUs ≠ 0) :
    clockRate.toNat % 1000 = 0 := by
  have bound := clockRate.toNat_lt
  have ahead : 3000000 * clockRate.toNat / 1000000 = 3 * clockRate.toNat := by omega
  have due : 3000000 * (clockRate.toNat / 1000) / 1000 = 3000 * (clockRate.toNat / 1000) := by omega
  have small : 3000000 * clockRate.toNat < 2 ^ 64 := by omega
  obtain ⟨now, reading, target, stamp, within⟩ := agree.fromZero 3000000 small
  rw [if_neg read] at reading
  -- The remainder of the rate comes on top, three times.
  have surplus : 3 * clockRate.toNat = 3000 * (clockRate.toNat / 1000) +
      3 * (clockRate.toNat % 1000) := by omega
  have rest : clockRate.toNat % 1000 < 1000 := Nat.mod_lt _ (by decide)
  simp only [UInt64.reduceToNat, ahead, due, surplus] at reading stamp
  simp only [WithinOne, ← UInt32.toNat_inj, UInt32.toNat_add, reading, stamp] at within
  simp only [UInt32.reduceToNat, Nat.mod_add_mod] at within
  clear ahead due small reading stamp surplus bound
  generalize 3000 * (clockRate.toNat / 1000) = common at within
  generalize clockRate.toNat % 1000 = remainder at within rest ⊢
  omega

theorem ClocksAgree.slow {clockRate : UInt32} (agree : ClocksAgree clockRate 0) :
    clockRate.toNat < 1000 := by
  have bound := clockRate.toNat_lt
  obtain ⟨now, reading, target, stamp, within⟩ := agree.fromZero 2000 (by
    simp only [UInt64.reduceToNat]
    omega)
  rw [if_pos rfl] at reading
  simp only [UInt64.reduceToNat] at reading stamp
  simp only [WithinOne, ← UInt32.toNat_inj, UInt32.toNat_add, reading, stamp] at within
  simp only [UInt32.reduceToNat] at within
  omega

/-- The clocks agree for the rates that are multiples of 1000.  A packet sent at a reading of
zero is taken for none, which goes unnoticed below 1000 only. -/
theorem clocksAgree_iff (clockRate : UInt32) (monotonicUs : UInt64) :
    ClocksAgree clockRate monotonicUs ↔
      if monotonicUs = 0 then clockRate.toNat < 1000 else clockRate.toNat % 1000 = 0 := by
  by_cases unread : monotonicUs = 0
  · rw [if_pos unread]
    subst unread
    constructor
    · exact ClocksAgree.slow
    · intro slow before after timeUs elapsedUs rate sent sum small
      obtain ⟨last, time, _⟩ := sent.fields
      have rounded : clockRate.toNat / 1000 = 0 := Nat.div_eq_of_lt slow
      have constant (x : UInt64) : computeTimestamp (sysClock x) clockRate = 0 := by
        apply UInt32.toNat_inj.mp
        rw [toNat_computeTimestamp, rounded, Nat.mul_zero]
        rfl
      constructor
      · rw [getRtpTimestampNow_unsent _ _ time, last, rate, constant, constant]
        exact Or.inl rfl
      · intro rtcp clock transmitted now
        rw [← now]
        exact report_timestamp rtcp after clock transmitted
  · rw [if_neg unread]
    constructor
    · intro agree
      exact agree.kilohertz unread
    · intro whole before after timeUs elapsedUs rate sent sum small
      obtain ⟨last, time, kept⟩ := sent.fields
      constructor
      · apply withinOne_of_kilohertz timeUs elapsedUs clockRate _ sum whole
        rw [← time, toNat_getRtpTimestampNow after elapsedUs (time.symm ▸ unread)
          (by rw [kept, rate]; exact small), last, kept, rate]
      · intro rtcp clock transmitted now
        rw [← now]
        exact report_timestamp rtcp after clock transmitted

/-- At 44100 Hz a report is 300 ticks ahead after three seconds. -/
theorem audio_clocks_drift : ¬ ClocksAgree 44100 1 := by
  intro agree
  exact absurd (agree.kilohertz (by decide)) (by decide)

example : ((RtpTransport.new (0, 0) 0 0 44100).counting (sysClock 0) 0 1).getRtpTimestampNow
    3000001 = computeTimestamp (sysClock 3000000) 44100 + 300 := by decide

end Compy.Reports
