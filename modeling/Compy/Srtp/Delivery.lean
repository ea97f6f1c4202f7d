import Compy.Library.ExtendedIndex
import Compy.Srtp.KeystreamUse
import Compy.Srtp.Receiver
import Compy.Srtp.Unprotect

/-!
# Delivery of a protected stream

A run of the sender, and then its successes on their way to a new receive context
with the same key and suite: late, early, lost, with anything else in between.
As long as the packet numbers fit the 32-bit index, the receiver's estimate of
the rollover counter is the sender's, its window tracks the numbers delivered,
and every packet comes out as it was sent.
-/

set_option autoImplicit false

namespace Compy.Srtp

open BigEndian CheckedBytes Compy.Rtp ReplayWindow ExtendedIndex

/-! ## The receiver's estimate -/

/-- The guess, its epoch counted modulo `2 ^ 32` as the code counts it. -/
theorem estimateRoc_wraps (ctx : SrtpRecvCtx) (seq : UInt16) (started : ctx.initialized = true) :
    (estimateRoc ctx seq).1.toNat =
      guess 32768 ctx.roc.toNat ctx.sL.toNat seq.toNat % 2 ^ 32 := by
  have one : (1 : UInt32).toNat = 1 := rfl
  have half : (0x8000 : UInt16).toNat = 32768 := rfl
  have same : ctx.roc.toNat % 2 ^ 32 = ctx.roc.toNat := Nat.mod_eq_of_lt ctx.roc.toNat_lt
  simp only [estimateRoc, guess, started, not_true_eq_false, if_false, UInt16.lt_iff_toNat_lt,
    half]
  by_cases low : ctx.sL.toNat < 32768
  · rw [if_pos low, if_pos low]
    by_cases before : ctx.sL.toNat + 32768 < seq.toNat
    · rw [if_pos (by omega), if_pos before]
      split
      · rename_i zero
        simp [zero]
      · rename_i positive
        have nonzero : ctx.roc.toNat ≠ 0 := fun zero => positive (UInt32.toNat_inj.mp zero)
        rw [UInt32.toNat_sub, one]
        omega
    · rw [if_neg (by omega), if_neg before, same]
  · rw [if_neg low, if_neg low]
    by_cases after : seq.toNat < ctx.sL.toNat - 32768
    · rw [if_pos (by omega), if_pos after, UInt32.toNat_add, one]
    · rw [if_neg (by omega), if_neg after, same]

theorem estimateRoc_toNat (ctx : SrtpRecvCtx) (seq : UInt16) (started : ctx.initialized = true)
    (small : ctx.roc.toNat < 65536) :
    (estimateRoc ctx seq).1.toNat =
      guess 32768 ctx.roc.toNat ctx.sL.toNat seq.toNat := by
  have next := guess_le_succ 32768 ctx.roc.toNat ctx.sL.toNat seq.toNat
  rw [estimateRoc_wraps ctx seq started, Nat.mod_eq_of_lt (by omega)]

theorem estimateRoc_index (ctx : SrtpRecvCtx) (seq : UInt16) :
    (estimateRoc ctx seq).2 = (estimateRoc ctx seq).1 * 65536 + seq.toUInt32 := rfl

theorem index_of_roc (roc : UInt32) (seq : UInt16) (n : Nat)
    (high : roc.toNat = n / 65536) (counted : seq.toNat = n % 65536) (small : n < 2 ^ 32) :
    (roc * 65536 + seq.toUInt32).toNat = n := by
  rw [UInt32.toNat_add, UInt32.toNat_mul, UInt16.toNat_toUInt32, counted, high]
  simp only [UInt32.reduceToNat]
  omega

theorem highest_split (ctx : SrtpRecvCtx) (small : ctx.roc.toNat < 65536) :
    ctx.roc.toNat = ctx.highest / 65536 ∧ ctx.sL.toNat = ctx.highest % 65536 := by
  have low := ctx.sL.toNat_lt
  have whole : ctx.highest = 65536 * ctx.roc.toNat + ctx.sL.toNat := by
    rw [SrtpRecvCtx.highest, UInt32.toNat_add, UInt32.toNat_mul, UInt16.toNat_toUInt32]
    simp only [UInt32.reduceToNat]
    omega
  omega

/-- The estimate is exact within half a round of the highest number. -/
theorem estimateRoc_exact (ctx : SrtpRecvCtx) (seq : UInt16) (n : Nat)
    (started : ctx.initialized = true) (bounded : ctx.roc.toNat < 65536)
    (counted : seq.toNat = n % 65536) (small : n < 2 ^ 32)
    (behind : ctx.highest < n + 32768) (ahead : n < ctx.highest + 32768) :
    estimateRoc ctx seq = (UInt32.ofNat (n / 65536), UInt32.ofNat n) := by
  have exact := guess_exact 32768 ctx.highest n behind ahead
  obtain ⟨high, low⟩ := highest_split ctx bounded
  rw [Nat.mul_comm] at exact
  have roc : (estimateRoc ctx seq).1.toNat = n / 65536 := by
    rw [estimateRoc_toNat ctx seq started bounded, high, low, counted]
    exact exact
  apply Prod.ext
  · apply UInt32.toNat_inj.mp
    rw [roc, UInt32.toNat_ofNat', Nat.mod_eq_of_lt (by omega)]
  · apply UInt32.toNat_inj.mp
    rw [estimateRoc_index, index_of_roc _ _ n roc counted small, UInt32.toNat_ofNat',
      Nat.mod_eq_of_lt small]

/-- Over the integers the estimate is exact in every epoch; only the 32-bit index of the
packet wraps. -/
theorem estimateRoc_epoch (ctx : SrtpRecvCtx) (index : Nat) (started : ctx.initialized = true)
    (near : ((index : Int) - (65536 * ctx.roc.toNat + ctx.sL.toNat)).natAbs < 2 ^ 15)
    (epoch : index / 65536 < 2 ^ 32) :
    (estimateRoc ctx (UInt16.ofNat (index % 65536))).1.toNat = index / 65536 ∧
      (estimateRoc ctx (UInt16.ofNat (index % 65536))).2.toNat = index % 2 ^ 32 := by
  have low := ctx.sL.toNat_lt
  have counted : (UInt16.ofNat (index % 65536)).toNat = index % 65536 := by simp
  have exact := guess_exact 32768 (65536 * ctx.roc.toNat + ctx.sL.toNat) index
    (by omega) (by omega)
  have high : (65536 * ctx.roc.toNat + ctx.sL.toNat) / (2 * 32768) = ctx.roc.toNat := by omega
  have rest : (65536 * ctx.roc.toNat + ctx.sL.toNat) % (2 * 32768) = ctx.sL.toNat := by omega
  rw [high, rest] at exact
  have roc : (estimateRoc ctx (UInt16.ofNat (index % 65536))).1.toNat = index / 65536 := by
    rw [estimateRoc_wraps ctx _ started, counted, exact]
    exact Nat.mod_eq_of_lt epoch
  refine ⟨roc, ?_⟩
  rw [estimateRoc_index, UInt32.toNat_add, UInt32.toNat_mul, UInt16.toNat_toUInt32, counted, roc]
  simp only [UInt32.reduceToNat]
  omega

/-- The last number of the last epoch behind the context, as the index wraps to 0. -/
def lastEpochCtx : SrtpRecvCtx :=
  { srtpRecvNew referenceOps .aesCm128HmacSha1_80 zeroMaster with
    initialized := true
    roc := 4294967294
    sL := 65535 }

theorem estimateRoc_epoch_last : (estimateRoc lastEpochCtx 3).1.toNat = 4294967295 ∧
    (estimateRoc lastEpochCtx 3).2.toNat = 4294901763 := by
  exact estimateRoc_epoch lastEpochCtx (4294967295 * 65536 + 3) rfl (by decide) (by decide)

theorem estimateRoc_first (ctx : SrtpRecvCtx) (seq : UInt16) (n : Nat)
    (unstarted : ctx.initialized = false) (counted : seq.toNat = n % 65536) (first : n < 65536) :
    estimateRoc ctx seq = (UInt32.ofNat (n / 65536), UInt32.ofNat n) := by
  have roc : (estimateRoc ctx seq).1 = 0 := by simp [estimateRoc, unstarted]
  have zero : n / 65536 = 0 := Nat.div_eq_of_lt first
  apply Prod.ext
  · rw [roc, zero]
    rfl
  · apply UInt32.toNat_inj.mp
    rw [estimateRoc_index, roc, index_of_roc 0 seq n zero.symm counted (by omega),
      UInt32.toNat_ofNat', Nat.mod_eq_of_lt (by omega)]

theorem replayUpdate_roc (ctx : SrtpRecvCtx) (seq : UInt16) (v : UInt32) :
    (replayUpdate ctx seq v).roc = v ∨ (replayUpdate ctx seq v).roc = ctx.roc := by
  unfold replayUpdate
  dsimp only
  split
  · exact Or.inl rfl
  · split
    · exact Or.inl rfl
    · exact Or.inr rfl

/-! ## Arrivals -/

variable {sender : SrtpSender}

/-- A success of the sender, in an array that may be longer, or anything else. -/
inductive Arrival (sender : SrtpSender) where
  | genuine (k : Fin sender.successes.length) (slack : List UInt8)
  | forged (datagram : Datagram)

def Arrival.data : Arrival sender → List UInt8
  | .genuine k slack => sender.successes[k].handed.wire ++ slack
  | .forged datagram => datagram.data

def Arrival.len : Arrival sender → Nat
  | .genuine k _ => sender.successes[k].handed.wire.length
  | .forged datagram => datagram.len

def Arrival.number (first : RtpTransport) : Arrival sender → Option Nat
  | .genuine k _ => some (first.seqNum.toNat + k)
  | .forged _ => none

def srtpLink (ops : CryptoSrtpOps) (first : RtpTransport) : Link (Arrival sender) where
  recv ctx arrival := srtpRecvUnprotect ops ctx arrival.data arrival.len
  number := Arrival.number first

/-- A packet arrives once, the first before the first wrap, the others less than
`2 ^ 15` ahead of and less than 64 behind the highest.  Anything else fails the
MAC check. -/
def Receiver.Orderly (ops : CryptoSrtpOps) (first : RtpTransport)
    (receiver : Receiver (Arrival sender)) : Arrival sender → Prop
  | .genuine k _ =>
      let n := first.seqNum.toNat + k
      n ∉ receiver.delivered ∧ (receiver.delivered = [] → n < 65536) ∧
        ∀ highest, IsGreatest {i | i ∈ receiver.delivered} highest →
          n < highest + 2 ^ 15 ∧ highest < n + 64
  | .forged datagram =>
      ¬ (12 + receiver.ctx.authTagLen ≤ datagram.len ∧
        SrtpTagOk ops receiver.ctx datagram.data datagram.len)

/-- The packet number fits the index, and a forged datagram fits `auth_input`
unless it is refused before it is copied there. -/
def Receiver.Within (first : RtpTransport) (receiver : Receiver (Arrival sender)) :
    Arrival sender → Prop
  | .genuine k _ => first.seqNum.toNat + k < 2 ^ 32
  | .forged datagram =>
      datagram.len ≤ srtpMaxPacketSize + receiver.ctx.authTagLen ∨
        replayCheck receiver.ctx (recvIndex receiver.ctx datagram.data) ≠ 0

/-- A genuine packet is accepted and in the array as it was sent. -/
def Restored : Arrival sender → RecvOutcome → Prop
  | .genuine k _, out => out.ret = 0 ∧ out.len = sender.successes[k].packet.length ∧
      out.data.take out.len = sender.successes[k].packet
  | .forged _, out => out.ret = -1

/-! ## The invariant -/

structure Receiver.Sound (ops : CryptoSrtpOps) (suite : SrtpSuite) (key : SrtpKeyMaterial)
    (receiver : Receiver (Arrival sender)) : Prop where
  session : receiver.ctx.session = (srtpRecvNew ops suite key).session
  startsEmpty : receiver.ctx.StartsEmpty
  started : receiver.ctx.initialized = true ↔ receiver.delivered ≠ []
  bounded : receiver.ctx.roc.toNat < 65536
  tracks : Tracks {i | i ∈ receiver.delivered} receiver.ctx.highest receiver.ctx.replayWindow
  restored : ∀ arrival out, (arrival, out) ∈ receiver.outcomes → Restored arrival out

theorem Receiver.start_sound (ops : CryptoSrtpOps) (suite : SrtpSuite) (key : SrtpKeyMaterial) :
    (Receiver.start ops suite key : Receiver (Arrival sender)).Sound ops suite key := by
  have history := History.start_sound ops suite key
  refine ⟨rfl, history.startsEmpty, ?_, ?_, history.srtp, ?_⟩
  · simp [Receiver.start, srtpRecvNew]
  · exact Nat.succ_pos _
  · intro arrival out member
    contradiction

theorem Receiver.Sound.shares {ops : CryptoSrtpOps} {suite : SrtpSuite} {key : SrtpKeyMaterial}
    {receiver : Receiver (Arrival sender)} (sound : receiver.Sound ops suite key) (n : Nat) :
    SharesSrtp ((transportSrtp ops suite key).atIndex n) receiver.ctx where
  key := congrArg SrtpSession.srtpKey sound.session
  salt := congrArg SrtpSession.srtpSalt sound.session
  authKey := congrArg SrtpSession.srtpAuthKey sound.session
  authTagLen := congrArg SrtpSession.authTagLen sound.session

/-- The estimate of an orderly arrival is the sender's counter, and the window
lets it through. -/
theorem Receiver.Sound.estimate {ops : CryptoSrtpOps} {suite : SrtpSuite}
    {key : SrtpKeyMaterial} {receiver : Receiver (Arrival sender)}
    (sound : receiver.Sound ops suite key) (seq : UInt16) (n : Nat)
    (counted : seq.toNat = n % 65536) (small : n < 2 ^ 32)
    (new : n ∉ receiver.delivered) (first : receiver.delivered = [] → n < 65536)
    (near : ∀ highest, IsGreatest {i | i ∈ receiver.delivered} highest →
      n < highest + 2 ^ 15 ∧ highest < n + 64) :
    estimateRoc receiver.ctx seq = (UInt32.ofNat (n / 65536), UInt32.ofNat n) ∧
      replayCheck receiver.ctx (UInt32.ofNat n) = 0 := by
  have index : (UInt32.ofNat n).toNat = n := by
    rw [UInt32.toNat_ofNat', Nat.mod_eq_of_lt small]
  constructor
  · cases started : receiver.ctx.initialized with
    | false =>
        have none : receiver.delivered = [] := by
          by_contra some
          rw [sound.started.mpr some] at started
          contradiction
        exact estimateRoc_first receiver.ctx seq n started counted (first none)
    | true =>
        have some := sound.started.mp started
        rcases sound.tracks.top with top | ⟨empty, _⟩
        · obtain ⟨ahead, behind⟩ := near receiver.ctx.highest ⟨top, sound.tracks.bounded⟩
          exact estimateRoc_exact receiver.ctx seq n started sound.bounded counted small
            (by omega) ahead
        · obtain ⟨i, member⟩ := List.exists_mem_of_ne_nil _ some
          have absent : i ∈ (∅ : Set Nat) := by
            rw [← empty]
            exact member
          exact absurd absent (Set.notMem_empty i)
  · apply (replayCheck_iff receiver.ctx sound.startsEmpty _).mpr
    apply (sound.tracks.acceptable_iff (by decide) _).mpr
    rw [index, fresh_iff_highest _ (List.finite_toSet _)]
    refine ⟨new, fun highest top => ?_⟩
    have := (near highest top).2
    omega

theorem Receiver.genuine_returned (ops : CryptoSrtpOps) (keystream : Key → Iv → Nat → UInt8)
    (xors : CtrXors ops keystream) (suite : SrtpSuite) (key : SrtpKeyMaterial)
    (first : RtpTransport) (receiver : Receiver (Arrival sender))
    (sound : receiver.Sound ops suite key) (k : Fin sender.successes.length) (slack : List UInt8)
    (n : Nat)
    (success : AttemptAt ops (transportSrtp ops suite key) first n sender.successes[k])
    (estimate : estimateRoc receiver.ctx sender.successes[k].rtp.seqNum =
      (UInt32.ofNat (n / 65536), UInt32.ofNat n))
    (passed : replayCheck receiver.ctx (UInt32.ofNat n) = 0) :
    ∃ rest, srtpRecvUnprotect ops receiver.ctx (Arrival.genuine k slack).data
        (Arrival.genuine k slack).len =
      .ok ⟨replayUpdate receiver.ctx sender.successes[k].rtp.seqNum (UInt32.ofNat (n / 65536)), 0,
        sender.successes[k].packet ++ rest, sender.successes[k].packet.length⟩ := by
  have seq := packetSeq_packetOf sender.successes[k].rtp sender.successes[k].args
  obtain ⟨length, rest, returned⟩ := srtpRecvUnprotect_protect ops keystream xors
    ((transportSrtp ops suite key).atIndex n) receiver.ctx (sound.shares n)
    (packetOf sender.successes[k].rtp sender.successes[k].args) slack _ (UInt32.ofNat n)
    (srtpHeaderLen_packetOf _ _) success.fits (by rw [seq]; exact estimate) passed
  rw [seq, ← length] at returned
  refine ⟨rest, ?_⟩
  simp only [Arrival.data, Arrival.len]
  rw [success.handed]
  exact returned

theorem Receiver.genuine_sound (ops : CryptoSrtpOps) (keystream : Key → Iv → Nat → UInt8)
    (xors : CtrXors ops keystream) (suite : SrtpSuite) (key : SrtpKeyMaterial)
    (first : RtpTransport) (sent : sender.Sound ops (transportSrtp ops suite key) first)
    (receiver : Receiver (Arrival sender)) (sound : receiver.Sound ops suite key)
    (k : Fin sender.successes.length) (slack : List UInt8)
    (orderly : receiver.Orderly ops first (.genuine k slack))
    (within : receiver.Within first (.genuine k slack)) :
    ∃ out next, receiver.receive (srtpLink ops first) (.genuine k slack) = .ok next ∧
      next.Sound ops suite key ∧
      next.delivered = (first.seqNum.toNat + k) :: receiver.delivered ∧
      next.outcomes = receiver.outcomes ++ [(.genuine k slack, out)] := by
  obtain ⟨new, wrap, near⟩ := orderly
  have success : AttemptAt ops (transportSrtp ops suite key) first (first.seqNum.toNat + k)
      sender.successes[k] := sent.success k k.isLt
  have small : first.seqNum.toNat + k < 2 ^ 32 := within
  have counted := success.seqNum
  obtain ⟨estimate, passed⟩ := sound.estimate _ _ counted small new wrap near
  obtain ⟨rest, returned⟩ := Receiver.genuine_returned ops keystream xors suite key first receiver
    sound k slack _ success estimate passed
  obtain ⟨started, advanced⟩ := replayUpdate_advance receiver.ctx sound.startsEmpty
    sender.successes[k].rtp.seqNum (UInt32.ofNat ((first.seqNum.toNat + k) / 65536))
  have roc : (UInt32.ofNat ((first.seqNum.toNat + k) / 65536)).toNat =
      (first.seqNum.toNat + k) / 65536 := by
    rw [UInt32.toNat_ofNat', Nat.mod_eq_of_lt (by omega)]
  rw [index_of_roc _ _ _ roc counted small] at advanced
  refine ⟨_, _, Receiver.receive_ok (srtpLink ops first) receiver _ _ returned, ?_, rfl, rfl⟩
  refine ⟨?_, ?_, ?_, ?_, ?_, ?_⟩
  · exact (replayUpdate_session _ _ _).trans sound.session
  · intro unstarted
    exact absurd (started.symm.trans unstarted) (by decide)
  · exact iff_of_true started (List.cons_ne_nil _ _)
  · change (replayUpdate receiver.ctx _ _).roc.toNat < 65536
    rcases replayUpdate_roc receiver.ctx sender.successes[k].rtp.seqNum
      (UInt32.ofNat ((first.seqNum.toNat + k) / 65536)) with new | old
    · rw [new, roc]
      omega
    · rw [old]
      exact sound.bounded
  · have tracked := sound.tracks.advance (first.seqNum.toNat + k)
    rw [← advanced, ← setOf_mem_cons] at tracked
    exact tracked
  · intro arrival out member
    rcases List.mem_append.mp member with old | new
    · exact sound.restored arrival out old
    · obtain ⟨rfl, rfl⟩ := Prod.mk.inj (List.mem_singleton.mp new)
      exact ⟨rfl, rfl, List.take_left' rfl⟩

theorem Receiver.forged_sound (ops : CryptoSrtpOps) (suite : SrtpSuite) (key : SrtpKeyMaterial)
    (first : RtpTransport) (receiver : Receiver (Arrival sender))
    (sound : receiver.Sound ops suite key) (datagram : Datagram)
    (orderly : receiver.Orderly ops first (.forged datagram))
    (within : receiver.Within first (.forged datagram)) :
    ∃ out next, receiver.receive (srtpLink ops first) (.forged datagram) = .ok next ∧
      next.Sound ops suite key ∧
      next.outcomes = receiver.outcomes ++ [(.forged datagram, out)] := by
  obtain ⟨data, len, held⟩ := datagram
  rcases srtpRecvUnprotect_returns ops receiver.ctx data len held with
    ⟨out, returned⟩ | ⟨_, _, passed, oversize⟩
  · rcases srtpRecvUnprotect_cases ops receiver.ctx data len held out returned with
      ⟨same, _⟩ | ⟨long, genuine, _⟩
    · rw [same] at returned
      refine ⟨_, _, Receiver.receive_ok (srtpLink ops first) receiver (.forged ⟨data, len, held⟩) _
        returned, ?_, rfl⟩
      refine ⟨sound.session, sound.startsEmpty, sound.started, sound.bounded, sound.tracks, ?_⟩
      intro arrival out member
      rcases List.mem_append.mp member with old | new
      · exact sound.restored arrival out old
      · obtain ⟨rfl, rfl⟩ := Prod.mk.inj (List.mem_singleton.mp new)
        exact rfl
    · exact absurd ⟨long, genuine⟩ orderly
  · rcases within with fits | replayed
    · dsimp only at fits
      omega
    · exact absurd passed replayed

theorem Receiver.run_sound (ops : CryptoSrtpOps) (keystream : Key → Iv → Nat → UInt8)
    (xors : CtrXors ops keystream) (suite : SrtpSuite) (key : SrtpKeyMaterial)
    (first : RtpTransport) (sent : sender.Sound ops (transportSrtp ops suite key) first)
    (arrivals : List (Arrival sender)) (receiver : Receiver (Arrival sender))
    (sound : receiver.Sound ops suite key)
    (along : Receiver.Along (srtpLink ops first) (fun receiver arrival =>
      receiver.Orderly ops first arrival ∧ receiver.Within first arrival) arrivals receiver) :
    ∃ final, Receiver.run (srtpLink ops first) arrivals receiver = .ok final ∧
      final.Sound ops suite key ∧
      final.outcomes.map Prod.fst = receiver.outcomes.map Prod.fst ++ arrivals := by
  refine Receiver.run_keeps _ _ _ ?_ arrivals receiver sound along
  intro receiver arrival sound ⟨orderly, within⟩
  cases arrival with
  | genuine k slack =>
      obtain ⟨out, next, received, kept, _, outcomes⟩ := Receiver.genuine_sound ops keystream
        xors suite key first sent receiver sound k slack orderly within
      exact ⟨out, next, received, kept, outcomes⟩
  | forged datagram =>
      obtain ⟨out, next, received, kept, outcomes⟩ := Receiver.forged_sound ops suite key
        first receiver sound datagram orderly within
      exact ⟨out, next, received, kept, outcomes⟩

/-- Within the index every orderly delivery restores the packets that were sent. -/
theorem delivery_restores (ops : CryptoSrtpOps) (keystream : Key → Iv → Nat → UInt8)
    (xors : CtrXors ops keystream) (suite : SrtpSuite) (key : SrtpKeyMaterial)
    (rtp : RtpTransport) (calls : List SenderCall) :
    ∃ sender, SrtpSender.run ops calls (SrtpSender.start ops suite key rtp) = .ok sender ∧
      sender.successes.map Attempt.packet = sentPackets suite.authTagLen rtp calls ∧
      ∀ arrivals : List (Arrival sender),
        Receiver.Along (srtpLink ops rtp)
            (fun receiver arrival => receiver.Orderly ops rtp arrival ∧ receiver.Within rtp arrival)
            arrivals (Receiver.start ops suite key) →
        ∃ final,
          Receiver.run (srtpLink ops rtp) arrivals (Receiver.start ops suite key) = .ok final ∧
          final.outcomes.map Prod.fst = arrivals ∧
          ∀ arrival out, (arrival, out) ∈ final.outcomes → Restored arrival out := by
  obtain ⟨sender, ran, sent⟩ := SrtpSender.run_sound ops (transportSrtp ops suite key) rtp calls _
    (SrtpSender.start_sound ops suite key rtp)
  have packets := SrtpSender.run_packets ops (transportSrtp ops suite key) rtp calls _ sender
    (SrtpSender.start_sound ops suite key rtp) ran
  refine ⟨sender, ran, packets, fun arrivals along => ?_⟩
  obtain ⟨final, received, sound, all⟩ := Receiver.run_sound ops keystream xors suite key rtp sent
    arrivals _ (Receiver.start_sound ops suite key) along
  exact ⟨final, received, all, sound.restored⟩

/-! ## Two deliveries -/

/-- The second packet first, an empty datagram, and then the first packet. -/
def swapped {sender : SrtpSender} (one : 1 < sender.successes.length) : List (Arrival sender) :=
  [.genuine ⟨1, one⟩ [], .forged ⟨[], 0, Nat.le_refl 0⟩, .genuine ⟨0, Nat.zero_lt_of_lt one⟩ []]

theorem swapped_along {sender : SrtpSender} (one : 1 < sender.successes.length) :
    Receiver.Along (srtpLink referenceOps newRtp)
      (fun receiver arrival => receiver.Orderly referenceOps newRtp arrival ∧
        receiver.Within newRtp arrival)
      (swapped one) (Receiver.start referenceOps .aesCm128HmacSha1_80 zeroMaster) := by
  have wrap : newRtp.seqNum.toNat + 1 < 65536 := by decide
  have oneWithin : newRtp.seqNum.toNat + 1 < 2 ^ 32 := by decide
  have zeroWithin : newRtp.seqNum.toNat + 0 < 2 ^ 32 := by decide
  have zeroNew : newRtp.seqNum.toNat + 0 ∉ [1] := by decide
  have zeroNear : newRtp.seqNum.toNat + 0 < 1 + 2 ^ 15 ∧ 1 < newRtp.seqNum.toNat + 0 + 64 := by
    decide
  refine ⟨⟨⟨List.not_mem_nil, fun _ => wrap, fun highest top => ?_⟩, oneWithin⟩, ?_⟩
  · exact absurd top.1 List.not_mem_nil
  intro second received
  have delivered := Receiver.receive_delivered (srtpLink referenceOps newRtp) _ second _ received
  refine ⟨⟨fun long => ?_, Or.inl (Nat.zero_le _)⟩, ?_⟩
  · have impossible : 12 + second.ctx.authTagLen.val ≤ 0 := long.1
    omega
  intro third received'
  have delivered' := Receiver.receive_delivered (srtpLink referenceOps newRtp) _ third _ received'
  rw [delivered] at delivered'
  have one : third.delivered = [1] := delivered'
  refine ⟨⟨⟨?_, ?_, fun highest top => ?_⟩, zeroWithin⟩, fun _ _ => trivial⟩
  · rw [one]
    exact zeroNew
  · rw [one]
    intro empty
    contradiction
  · rw [one] at top
    have greatest : highest = 1 := List.mem_singleton.mp top.1
    rw [greatest]
    exact zeroNear

theorem swapped_restored :
    ∃ sender, SrtpSender.run referenceOps ([oneByte 0, oneByte 1].map fun args => .send args 0)
        (SrtpSender.start referenceOps .aesCm128HmacSha1_80 zeroMaster newRtp) = .ok sender ∧
      sender.successes.map Attempt.packet =
        sentPackets (SrtpSuite.aesCm128HmacSha1_80).authTagLen newRtp
          ([oneByte 0, oneByte 1].map fun args => .send args 0) ∧
      ∃ one : 1 < sender.successes.length,
        ∃ final, Receiver.run (srtpLink referenceOps newRtp) (swapped one)
            (Receiver.start referenceOps .aesCm128HmacSha1_80 zeroMaster) = .ok final ∧
          final.outcomes.map Prod.fst = swapped one ∧
          ∀ arrival out, (arrival, out) ∈ final.outcomes → Restored arrival out := by
  obtain ⟨sender, ran, packets, restores⟩ := delivery_restores referenceOps Aes128.keystream
    referenceOps_xors .aesCm128HmacSha1_80 zeroMaster newRtp
    ([oneByte 0, oneByte 1].map fun args => .send args 0)
  obtain ⟨same, ran', _, successes⟩ := SrtpSender.run_sends referenceOps _ newRtp
    [oneByte 0, oneByte 1] _
    (SrtpSender.start_sound referenceOps .aesCm128HmacSha1_80 zeroMaster newRtp) (by
      intro args member
      rcases List.mem_pair.mp member with zero | one
      · rw [zero]
        exact oneByte_fits 0
      · rw [one]
        exact oneByte_fits 1)
  obtain rfl := Except.ok.inj (ran.symm.trans ran')
  have count : sender.successes.length = 2 := by
    have length := congrArg List.length successes
    rwa [List.length_map] at length
  have one : 1 < sender.successes.length := by omega
  exact ⟨sender, ran, packets, one, restores _ (swapped_along one)⟩

def inOrder (sender : SrtpSender) : (m : Nat) → m ≤ sender.successes.length → List (Arrival sender)
  | 0, _ => []
  | m + 1, inside => inOrder sender m (Nat.le_of_succ_le inside) ++ [.genuine ⟨m, inside⟩ []]

/-- A stream from sequence number 0, delivered in order as far as the index goes. -/
theorem inOrder_received (ops : CryptoSrtpOps) (keystream : Key → Iv → Nat → UInt8)
    (xors : CtrXors ops keystream) (suite : SrtpSuite) (key : SrtpKeyMaterial)
    (first : RtpTransport) (zero : first.seqNum.toNat = 0)
    (sent : sender.Sound ops (transportSrtp ops suite key) first) (m : Nat) (short : m ≤ 2 ^ 32)
    (inside : m ≤ sender.successes.length) :
    Receiver.Along (srtpLink ops first)
        (fun receiver arrival => receiver.Orderly ops first arrival ∧
          receiver.Within first arrival) (inOrder sender m inside)
        (Receiver.start ops suite key) ∧
      ∃ receiver, Receiver.run (srtpLink ops first) (inOrder sender m inside)
          (Receiver.start ops suite key) = .ok receiver ∧
        receiver.Sound ops suite key ∧ ∀ i, i ∈ receiver.delivered ↔ i < m := by
  induction m with
  | zero =>
      exact ⟨trivial, _, rfl, Receiver.start_sound ops suite key,
        fun i => iff_of_false List.not_mem_nil (Nat.not_lt_zero i)⟩
  | succ m ih =>
      obtain ⟨along, receiver, ran, sound, delivered⟩ :=
        ih (Nat.le_of_succ_le short) (Nat.le_of_succ_le inside)
      have orderly : receiver.Orderly ops first (.genuine ⟨m, inside⟩ []) := by
        refine ⟨?_, fun none => ?_, fun highest top => ?_⟩
        · rw [zero, Nat.zero_add, delivered]
          exact Nat.lt_irrefl m
        · have start : m = 0 := by
            by_contra later
            have member := (delivered 0).mpr (Nat.pos_of_ne_zero later)
            rw [none] at member
            contradiction
          simp [zero, start]
        · have below : highest < m := (delivered highest).mp top.1
          have above : m - 1 ≤ highest := top.2 ((delivered (m - 1)).mpr (by omega))
          simp only [zero, Nat.zero_add]
          omega
      have within : receiver.Within first (.genuine ⟨m, inside⟩ []) := by
        have fits : first.seqNum.toNat + m < 2 ^ 32 := by omega
        exact fits
      obtain ⟨_, next, received, kept, numbers, _⟩ := Receiver.genuine_sound ops keystream xors
        suite key first sent receiver sound ⟨m, inside⟩ [] orderly within
      refine ⟨Receiver.along_append (srtpLink ops first) _ _ _ _ along ?_, next, ?_, kept, ?_⟩
      · intro final same
        rw [← Except.ok.inj (ran.symm.trans same)]
        exact ⟨orderly, within⟩
      · rw [inOrder, Receiver.run_append, ran, ok_bind, received]
      · intro i
        rw [numbers, List.mem_cons, delivered, zero, Nat.zero_add]
        dsimp only
        omega

theorem wrapped_refused (ctx : SrtpRecvCtx) (started : ctx.initialized = true)
    (bounded : ctx.roc.toNat < 65536) (highest : ctx.highest = 2 ^ 32 - 1) :
    replayCheck ctx (estimateRoc ctx 0).2 ≠ 0 := by
  obtain ⟨high, low⟩ := highest_split ctx bounded
  have roc : ctx.roc = 65535 := by
    apply UInt32.toNat_inj.mp
    rw [high, highest]
    rfl
  have sL : ctx.sL = 65535 := by
    apply UInt16.toNat_inj.mp
    rw [low, highest]
    rfl
  have index : (estimateRoc ctx 0).2 = 0 := by
    simp [estimateRoc, started, sL, roc]
  rw [index]
  simp [replayCheck, started, sL, roc, srtpReplayWindowSize]

theorem inOrder_refused (n : Nat) (wraps : n = 2 ^ 32) :
    ∃ sender, SrtpSender.run referenceOps
        ((List.replicate (n + 1) (oneByte 0)).map fun args => .send args 0)
        (SrtpSender.start referenceOps .aesCm128HmacSha1_80 zeroMaster newRtp) = .ok sender ∧
      ∃ inside : n + 1 ≤ sender.successes.length,
        Receiver.Along (srtpLink referenceOps newRtp) (Receiver.Orderly referenceOps newRtp)
          (inOrder sender (n + 1) inside)
          (Receiver.start referenceOps .aesCm128HmacSha1_80 zeroMaster) ∧
        ∃ final out, Receiver.run (srtpLink referenceOps newRtp) (inOrder sender (n + 1) inside)
            (Receiver.start referenceOps .aesCm128HmacSha1_80 zeroMaster) = .ok final ∧
          (.genuine ⟨n, inside⟩ [], out) ∈ final.outcomes ∧ out.ret = -1 := by
  obtain ⟨sender, ran, sent, successes⟩ := SrtpSender.run_sends referenceOps _ newRtp
    (List.replicate (n + 1) (oneByte 0)) _
    (SrtpSender.start_sound referenceOps .aesCm128HmacSha1_80 zeroMaster newRtp) (by
      intro args member
      rw [List.eq_of_mem_replicate member]
      exact oneByte_fits 0)
  have all : sender.successes.map Attempt.args = List.replicate (n + 1) (oneByte 0) := successes
  have inside : n + 1 ≤ sender.successes.length := by
    rw [← List.length_map Attempt.args, all, List.length_replicate]
  have zero : newRtp.seqNum.toNat = 0 := rfl
  obtain ⟨along, receiver, received, sound, delivered⟩ := inOrder_received referenceOps
    Aes128.keystream referenceOps_xors .aesCm128HmacSha1_80 zeroMaster newRtp zero sent n
    (Nat.le_of_eq wraps) (Nat.le_of_succ_le inside)
  have some : receiver.delivered ≠ [] := by
    have member := (delivered 0).mpr (by omega)
    exact List.ne_nil_of_mem member
  have highest : receiver.ctx.highest = 2 ^ 32 - 1 := by
    have above := sound.tracks.bounded (n - 1) ((delivered (n - 1)).mpr (by omega))
    rcases sound.tracks.top with top | ⟨empty, _⟩
    · have below := (delivered _).mp top
      omega
    · have member : 0 ∈ {i | i ∈ receiver.delivered} := (delivered 0).mpr (by omega)
      rw [empty] at member
      contradiction
  have success := sent.success n inside
  have seqNum : sender.successes[n].rtp.seqNum = 0 := by
    apply UInt16.toNat_inj.mp
    rw [success.seqNum, zero, wraps]
    rfl
  have seq : recvSeq (Arrival.genuine ⟨n, inside⟩ []).data = 0 := by
    rw [← seqNum, ← packetSeq_packetOf _ sender.successes[n].args]
    have read := recvSeq_protect referenceOps ((transportSrtp referenceOps .aesCm128HmacSha1_80
      zeroMaster).atIndex (newRtp.seqNum.toNat + n)) _ [] _
      (UInt32.ofNat (newRtp.seqNum.toNat + n))
      (srtpHeaderLen_packetOf sender.successes[n].rtp sender.successes[n].args)
    simp only [Arrival.data, Fin.getElem_fin]
    rw [success.handed]
    exact read
  have refused : replayCheck receiver.ctx
      (recvIndex receiver.ctx (Arrival.genuine ⟨n, inside⟩ []).data) ≠ 0 := by
    rw [recvIndex, seq]
    exact wrapped_refused receiver.ctx (sound.started.mpr some) sound.bounded highest
  have returned := srtpRecvUnprotect_refused referenceOps receiver.ctx
    (Arrival.genuine ⟨n, inside⟩ []).data
    (Arrival.genuine ⟨n, inside⟩ []).len
    (by simp [Arrival.data, Arrival.len]) refused
  have last := Receiver.receive_ok (srtpLink referenceOps newRtp) receiver _ _ returned
  have whole := Receiver.run_append (srtpLink referenceOps newRtp)
    (inOrder sender n (Nat.le_of_succ_le inside)) (.genuine ⟨n, inside⟩ [])
    (Receiver.start referenceOps .aesCm128HmacSha1_80 zeroMaster)
  rw [received, ok_bind, last] at whole
  refine ⟨sender, ran, inside, ?_, _, _, whole,
    List.mem_append_right _ (List.mem_singleton.mpr rfl), rfl⟩
  refine Receiver.along_append _ _ _ _ _
    (Receiver.along_mono _ _ _ (fun _ _ both => both.1) _ _ along) ?_
  intro final same
  rw [← Except.ok.inj (received.symm.trans same)]
  refine ⟨?_, fun none => absurd none some, fun highest top => ?_⟩
  · rw [zero, Nat.zero_add, delivered]
    exact Nat.lt_irrefl n
  · have below : highest < n := (delivered highest).mp top.1
    have above : n - 1 ≤ highest := top.2 ((delivered (n - 1)).mpr (by omega))
    simp only [zero, Nat.zero_add]
    omega

/-- All `2 ^ 32 + 1` packets of a stream from sequence number 0, in order and
without loss: the last one is refused. -/
theorem wrapped_index_refused :
    ∃ sender, SrtpSender.run referenceOps
        ((List.replicate (2 ^ 32 + 1) (oneByte 0)).map fun args => .send args 0)
        (SrtpSender.start referenceOps .aesCm128HmacSha1_80 zeroMaster newRtp) = .ok sender ∧
      ∃ inside : 2 ^ 32 + 1 ≤ sender.successes.length,
        Receiver.Along (srtpLink referenceOps newRtp) (Receiver.Orderly referenceOps newRtp)
          (inOrder sender (2 ^ 32 + 1) inside)
          (Receiver.start referenceOps .aesCm128HmacSha1_80 zeroMaster) ∧
        ∃ final out,
          Receiver.run (srtpLink referenceOps newRtp) (inOrder sender (2 ^ 32 + 1) inside)
            (Receiver.start referenceOps .aesCm128HmacSha1_80 zeroMaster) = .ok final ∧
          (.genuine ⟨2 ^ 32, inside⟩ [], out) ∈ final.outcomes ∧ out.ret = -1 :=
  inOrder_refused (2 ^ 32) rfl

end Compy.Srtp
