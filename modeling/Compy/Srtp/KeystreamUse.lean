import Compy.Srtp.ReceiveEffects
import Compy.Srtp.SenderRuns

/-!
# Keystream use over whole runs

Two packets encrypted under one IV give away the XOR of their payloads.  The IV
has the packet index in it, but only its low 32 bits, and a failed attempt keeps
its number for the next one.
-/

set_option autoImplicit false

namespace Compy.Srtp

open BigEndian CheckedBytes Compy.Rtp AttemptLog

theorem AttemptAt.iv_eq_iff {ops : CryptoSrtpOps} {keys : SrtpTransport} {first : RtpTransport}
    {m n : Nat} {left right : Attempt} (leftAt : AttemptAt ops keys first m left)
    (rightAt : AttemptAt ops keys first n right) :
    left.handed.iv = right.handed.iv ↔ m % 2 ^ 32 = n % 2 ^ 32 := by
  have ssrc : left.rtp.ssrc = right.rtp.ssrc := leftAt.ssrc.trans rightAt.ssrc.symm
  rw [leftAt.handed, rightAt.handed]
  simp only [SrtpTransport.protectAt, SrtpTransport.protect, packetSsrc_packetOf, ssrc]
  constructor
  · intro same
    have index := congrArg UInt32.toNat (srtpIv_injective _ _ _ _ same)
    rwa [UInt32.toNat_ofNat', UInt32.toNat_ofNat'] at index
  · intro same
    have index : UInt32.ofNat m = UInt32.ofNat n := by
      apply UInt32.toNat_inj.mp
      rw [UInt32.toNat_ofNat', UInt32.toNat_ofNat', same]
    rw [index]
    rfl

theorem AttemptAt.packet_eq_iff {ops : CryptoSrtpOps} {keys : SrtpTransport}
    {first : RtpTransport} {m n : Nat} {left right : Attempt}
    (leftAt : AttemptAt ops keys first m left) (rightAt : AttemptAt ops keys first n right)
    (same : m % 65536 = n % 65536) :
    left.handed.packet = right.handed.packet ↔
      contentOf left.rtp left.args = contentOf right.rtp right.args := by
  have seqNum : left.rtp.seqNum = right.rtp.seqNum :=
    UInt16.toNat_inj.mp (leftAt.seqNum.trans (same.trans rightAt.seqNum.symm))
  rw [leftAt.handed, rightAt.handed]
  exact contentOf_eq_iff _ _ _ _ seqNum (leftAt.ssrc.trans rightAt.ssrc.symm)

/-! ## Between successes -/

/-- A run repeats no IV among its successes exactly when there are at most `2 ^ 32`
of them. -/
theorem success_ivs_nodup_iff (ops : CryptoSrtpOps) (suite : SrtpSuite) (key : SrtpKeyMaterial)
    (rtp : RtpTransport) (calls : List SenderCall) :
    ∃ sender, SrtpSender.run ops calls (SrtpSender.start ops suite key rtp) = .ok sender ∧
      ((sender.successes.map fun attempt => attempt.handed.iv).Nodup ↔
        sender.successes.length ≤ 2 ^ 32) := by
  obtain ⟨sender, ran, sound⟩ := SrtpSender.run_sound ops (transportSrtp ops suite key) rtp calls _
    (SrtpSender.start_sound ops suite key rtp)
  refine ⟨sender, ran, ?_⟩
  rw [List.Nodup, List.pairwise_iff_getElem]
  simp only [List.length_map, List.getElem_map]
  constructor
  · intro distinct
    by_contra long
    have again := (sound.success 0 (by omega)).iv_eq_iff (sound.success (2 ^ 32) (by omega))
    refine distinct 0 (2 ^ 32) (by omega) (by omega) (by decide) (again.mpr ?_)
    rw [Nat.add_zero, Nat.add_mod_right]
  · intro short i j insideLeft insideRight less same
    have index := ((sound.success i insideLeft).iv_eq_iff (sound.success j insideRight)).mp same
    omega

/-- A new transport as `Compy_RtpTransport_new` makes it from a random sequence
number of 0, and packets with one payload byte. -/
def newRtp : RtpTransport := RtpTransport.new (0, 0) 0 96 90000

def oneByte (byte : UInt8) : SendArgs := ⟨.raw 0, false, [], [byte], 0⟩

theorem oneByte_fits (byte : UInt8) :
    (packetOf newRtp (oneByte byte)).length + (transportSrtp referenceOps .aesCm128HmacSha1_80
      zeroMaster).authTagLen ≤ srtpMaxPacketSize := by
  have size : (oneByte byte).payloadHeader.length + (oneByte byte).payload.length = 1 := rfl
  rw [length_packetOf, size]
  decide

theorem oneByte_packet_ne {ops : CryptoSrtpOps} {keys : SrtpTransport} {first : RtpTransport}
    {m n : Nat} {left right : Attempt} (leftAt : AttemptAt ops keys first m left)
    (rightAt : AttemptAt ops keys first n right) (same : m % 65536 = n % 65536)
    (zero : left.args = oneByte 0) (one : right.args = oneByte 1) :
    left.handed.packet ≠ right.handed.packet := by
  intro packet
  have content := (leftAt.packet_eq_iff rightAt same).mp packet
  rw [zero, one] at content
  have payload := congrArg (fun content => content.2.2.2) content
  simp [contentOf, oneByte] at payload

/-- The packet after any multiple of `2 ^ 32` successes meets the first IV again. -/
theorem first_iv_returns (n : Nat) (later : 0 < n) (wraps : n % 2 ^ 32 = 0) :
    ∃ sender, SrtpSender.run referenceOps
        ((oneByte 0 :: List.replicate n (oneByte 1)).map fun args => .send args 0)
        (SrtpSender.start referenceOps .aesCm128HmacSha1_80 zeroMaster newRtp) = .ok sender ∧
      ∃ (_ : 0 < sender.successes.length) (_ : n < sender.successes.length),
        sender.successes[0].handed.packet ≠ sender.successes[n].handed.packet ∧
        sender.successes[0].handed.iv = sender.successes[n].handed.iv := by
  obtain ⟨sender, ran, sound, successes⟩ := SrtpSender.run_sends referenceOps _ newRtp
    (oneByte 0 :: List.replicate n (oneByte 1)) _
    (SrtpSender.start_sound referenceOps .aesCm128HmacSha1_80 zeroMaster newRtp) (by
      intro args member
      rcases List.mem_cons.mp member with zero | one
      · rw [zero]
        exact oneByte_fits 0
      · rw [List.eq_of_mem_replicate one]
        exact oneByte_fits 1)
  have sent : sender.successes.map Attempt.args = oneByte 0 :: List.replicate n (oneByte 1) :=
    successes
  have count : sender.successes.length = n + 1 := by
    rw [← List.length_map Attempt.args, sent, List.length_cons, List.length_replicate]
  have first : 0 < sender.successes.length := by omega
  have last : n < sender.successes.length := by omega
  have zero : sender.successes[0].args = oneByte 0 := by
    rw [← List.getElem_map Attempt.args]
    · simp only [sent, List.getElem_cons_zero]
    · rw [List.length_map]
      exact first
  have one : sender.successes[n].args = oneByte 1 := by
    obtain ⟨m, rfl⟩ := Nat.exists_eq_succ_of_ne_zero (Nat.ne_of_gt later)
    rw [← List.getElem_map Attempt.args]
    · simp only [sent, Nat.succ_eq_add_one, List.getElem_cons_succ, List.getElem_replicate]
    · rw [List.length_map]
      exact last
  have earlier := sound.success 0 first
  have again := sound.success n last
  refine ⟨sender, ran, first, last, oneByte_packet_ne earlier again ?_ zero one,
    (earlier.iv_eq_iff again).mpr ?_⟩
  · omega
  · omega

/-- One success more than there are indices. -/
theorem success_iv_repeats :
    ∃ sender, SrtpSender.run referenceOps
        ((oneByte 0 :: List.replicate (2 ^ 32) (oneByte 1)).map fun args => .send args 0)
        (SrtpSender.start referenceOps .aesCm128HmacSha1_80 zeroMaster newRtp) = .ok sender ∧
      ∃ (_ : 0 < sender.successes.length) (_ : 2 ^ 32 < sender.successes.length),
        sender.successes[0].handed.packet ≠ sender.successes[2 ^ 32].handed.packet ∧
        sender.successes[0].handed.iv = sender.successes[2 ^ 32].handed.iv :=
  first_iv_returns (2 ^ 32) (by decide) (by decide)

/-! ## Between attempts -/

def SenderCall.isSend : SenderCall → Bool
  | .send .. => true
  | .setExtension _ => false

theorem SrtpSender.run_attempts (ops : CryptoSrtpOps) (keys : SrtpTransport)
    (first : RtpTransport) (calls : List SenderCall) (self final : SrtpSender)
    (sound : self.Sound ops keys first) (ran : SrtpSender.run ops calls self = .ok final) :
    final.attempts.length ≤ self.attempts.length + calls.countP SenderCall.isSend := by
  induction calls generalizing self with
  | nil =>
      cases ran
      exact Nat.le_refl _
  | cons call rest ih =>
      rw [List.countP_cons]
      cases call with
      | send args innerRet =>
          rcases SrtpSender.send_cases ops keys first self sound args innerRet with
            ⟨_, called⟩ | ⟨_, next, called, kept, _, attempts⟩
          · rw [SrtpSender.run, called, ok_bind] at ran
            have bound := ih self sound ran
            simp only [SenderCall.isSend, if_true]
            omega
          · rw [SrtpSender.run, called, ok_bind] at ran
            have bound := ih next kept ran
            rw [attempts, List.length_append, List.length_singleton] at bound
            simp only [SenderCall.isSend, if_true]
            omega
      | setExtension element =>
          obtain ⟨next, called, kept⟩ :=
            SrtpSender.call_sound ops keys first self sound (.setExtension element)
          rw [SrtpSender.run, called, ok_bind] at ran
          cases called
          have bound := ih _ kept ran
          exact bound

/-- Different packets handed to the inner transport meet different IVs. -/
def SrtpSender.DistinctIvs (self : SrtpSender) : Prop :=
  ∀ i j (insideLeft : i < self.attempts.length) (insideRight : j < self.attempts.length),
    self.attempts[i].handed.packet ≠ self.attempts[j].handed.packet →
    self.attempts[i].handed.iv ≠ self.attempts[j].handed.iv

/-- Whatever follows a failed attempt is a send of the same thing. -/
def SrtpSender.RetriesSame (self : SrtpSender) : Prop :=
  ∀ m (inside : m + 1 < self.attempts.length), self.attempts[m].ret = -1 →
    contentOf self.attempts[m + 1].rtp self.attempts[m + 1].args =
      contentOf self.attempts[m].rtp self.attempts[m].args

theorem attempt_ivs_distinct_iff (ops : CryptoSrtpOps) (suite : SrtpSuite) (key : SrtpKeyMaterial)
    (rtp : RtpTransport) (calls : List SenderCall)
    (few : calls.countP SenderCall.isSend < 2 ^ 32) :
    ∃ sender, SrtpSender.run ops calls (SrtpSender.start ops suite key rtp) = .ok sender ∧
      (sender.DistinctIvs ↔ sender.RetriesSame) := by
  obtain ⟨sender, ran, sound⟩ := SrtpSender.run_sound ops (transportSrtp ops suite key) rtp calls _
    (SrtpSender.start_sound ops suite key rtp)
  refine ⟨sender, ran, ?_⟩
  have bound : sender.attempts.length < 2 ^ 32 := by
    have counted := SrtpSender.run_attempts ops _ rtp calls _ sender
      (SrtpSender.start_sound ops suite key rtp) ran
    simp only [SrtpSender.start, List.length_nil, Nat.zero_add] at counted
    omega
  have numbered := fun i inside => sound.numbered.getElem i inside
  constructor
  · intro distinct m inside failed
    have count : (sender.attempts.take (m + 1)).countP Attempt.succeeded =
        (sender.attempts.take m).countP Attempt.succeeded := by
      rw [List.take_succ_eq_append_getElem (by omega), List.countP_append, List.countP_singleton]
      simp [Attempt.succeeded, failed]
    have later := numbered (m + 1) inside
    rw [count] at later
    have earlier := numbered m (by omega)
    apply (later.packet_eq_iff earlier rfl).mp
    by_contra differ
    exact distinct (m + 1) m _ _ differ ((later.iv_eq_iff earlier).mpr rfl)
  · intro retries
    have shared : ∀ i j (insideLeft : i < sender.attempts.length)
        (insideRight : j < sender.attempts.length), i ≤ j →
        sender.attempts[i].handed.iv = sender.attempts[j].handed.iv →
        sender.attempts[i].handed.packet = sender.attempts[j].handed.packet := by
      intro i j insideLeft insideRight ordered same
      have index := ((numbered i insideLeft).iv_eq_iff (numbered j insideRight)).mp same
      have mono := countP_take_mono Attempt.succeeded sender.attempts i j ordered
      have most : (sender.attempts.take j).countP Attempt.succeeded ≤ sender.attempts.length :=
        List.countP_le_length.trans (List.length_take_le' _ _)
      have count : (sender.attempts.take i).countP Attempt.succeeded =
          (sender.attempts.take j).countP Attempt.succeeded := by omega
      apply ((numbered i insideLeft).packet_eq_iff (numbered j insideRight) (by rw [count])).mpr
      refine (shared_of_retries (fun attempt => contentOf attempt.rtp attempt.args) ?_ ordered
        insideRight count).symm
      intro m inside failed
      exact retries m inside (by simpa [Attempt.succeeded] using failed)
    intro i j insideLeft insideRight differ same
    rcases Nat.le_total i j with ordered | ordered
    · exact differ (shared i j insideLeft insideRight ordered same)
    · exact differ (shared j i insideRight insideLeft ordered same.symm).symm

theorem retry_distinct_iff :
    ∃ sender, SrtpSender.run referenceOps [.send (oneByte 0) (-1), .send (oneByte 0) 0]
        (SrtpSender.start referenceOps .aesCm128HmacSha1_80 zeroMaster newRtp) = .ok sender ∧
      (sender.DistinctIvs ↔ sender.RetriesSame) :=
  attempt_ivs_distinct_iff referenceOps .aesCm128HmacSha1_80 zeroMaster newRtp
    [.send (oneByte 0) (-1), .send (oneByte 0) 0] (by decide)

/-- A failed attempt and then a send of something else. -/
theorem failed_iv_repeats :
    ∃ sender, SrtpSender.run referenceOps [.send (oneByte 0) (-1), .send (oneByte 1) 0]
        (SrtpSender.start referenceOps .aesCm128HmacSha1_80 zeroMaster newRtp) = .ok sender ∧
      ∃ (_ : 0 < sender.attempts.length) (_ : 1 < sender.attempts.length),
        sender.attempts[0].handed.packet ≠ sender.attempts[1].handed.packet ∧
        sender.attempts[0].handed.iv = sender.attempts[1].handed.iv := by
  have start := SrtpSender.start_sound referenceOps .aesCm128HmacSha1_80 zeroMaster newRtp
  rcases SrtpSender.send_cases referenceOps _ newRtp _ start (oneByte 0) (-1) with
    ⟨oversize, _⟩ | ⟨_, once, called, kept, counted, attempts⟩
  · exact absurd (oneByte_fits 0) (Nat.not_le.mpr oversize)
  rcases SrtpSender.send_cases referenceOps _ newRtp once kept (oneByte 1) 0 with
    ⟨oversize, _⟩ | ⟨_, twice, called', kept', _, attempts'⟩
  · rw [counted, if_pos rfl] at oversize
    exact absurd (oneByte_fits 1) (Nat.not_le.mpr oversize)
  rw [attempts] at attempts'
  have count : twice.attempts.length = 2 := by
    rw [attempts']
    rfl
  have first : 0 < twice.attempts.length := by omega
  have second : 1 < twice.attempts.length := by omega
  have zero : twice.attempts[0].args = oneByte 0 := by
    simp only [attempts']
    rfl
  have one : twice.attempts[1].args = oneByte 1 := by
    simp only [attempts']
    rfl
  have failed : (twice.attempts.take 1).countP Attempt.succeeded = 0 := by
    rw [attempts']
    rfl
  have earlier := kept'.numbered.getElem 0 first
  have later := kept'.numbered.getElem 1 second
  rw [failed] at later
  refine ⟨twice, ?_, first, second, oneByte_packet_ne earlier later rfl zero one,
    (earlier.iv_eq_iff later).mpr rfl⟩
  rw [SrtpSender.run, called, ok_bind, SrtpSender.run, called', ok_bind]
  rfl

end Compy.Srtp
