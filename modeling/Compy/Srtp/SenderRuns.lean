import Compy.Library.AttemptLog
import Compy.Library.ExtendedIndex
import Compy.Srtp.SenderPacket

/-!
# Runs of a protected RTP sender

A `Compy_RtpTransport` over a `Compy_SrtpTransport` over an inner transport that
answers what it likes.  The two upper layers count at different moments: the RTP
layer moves its sequence number after a success, the SRTP layer its rollover
counter before it hands a packet over.  `attempts` is the record of all calls of
the inner transport.  The invariant is that the attempt which is numbered `n`,
counting successes from the starting sequence number, was protected as packet
number `n` of a stream that never wraps.
-/

set_option autoImplicit false

namespace Compy.Srtp

open BigEndian CheckedBytes Compy.Rtp AttemptLog ExtendedIndex

inductive SenderCall where
  | send (args : SendArgs) (innerRet : Int)
  | setExtension (element : ExtensionElement)

/-- One call of the inner transport: the state and the arguments of
`send_packet`, what was handed over, and what `send_packet` returned. -/
structure Attempt where
  rtp : RtpTransport
  args : SendArgs
  handed : HandedSrtp
  ret : Int

def Attempt.succeeded (self : Attempt) : Bool := decide (self.ret ≠ -1)

/-- What `send_packet` was called to send. -/
def Attempt.packet (self : Attempt) : List UInt8 := packetOf self.rtp self.args

structure SrtpSender where
  rtp : RtpTransport
  srtp : SrtpTransport
  attempts : List Attempt

def SrtpSender.successes (self : SrtpSender) : List Attempt :=
  self.attempts.filter Attempt.succeeded

def SrtpSender.start (ops : CryptoSrtpOps) (suite : SrtpSuite) (key : SrtpKeyMaterial)
    (rtp : RtpTransport) : SrtpSender := ⟨rtp, transportSrtp ops suite key, []⟩

def SrtpSender.call (ops : CryptoSrtpOps) (self : SrtpSender) : SenderCall → Access SrtpSender
  | .send args innerRet => do
      let (rtp, (srtp, handed), ret) ← self.rtp.sendPacket
        (SrtpTransport.transmit ops innerRet self.srtp) args.ts args.marker args.payloadHeader
        args.payload args.monotonicUs
      let attempt := handed.map fun handed => Attempt.mk self.rtp args handed ret
      return ⟨rtp, srtp, self.attempts ++ attempt.toList⟩
  | .setExtension element => .ok { self with rtp := self.rtp.setExtension element }

def SrtpSender.run (ops : CryptoSrtpOps) : List SenderCall → SrtpSender → Access SrtpSender
  | [], sender => .ok sender
  | call :: rest, sender => do
      let next ← sender.call ops call
      SrtpSender.run ops rest next

/-- The packets of the sends that are taken, as the RTP transport alone counts them. -/
def sentPackets (authTagLen : Nat) : RtpTransport → List SenderCall → List (List UInt8)
  | _, [] => []
  | rtp, .send args innerRet :: rest =>
      if (packetOf rtp args).length + authTagLen ≤ srtpMaxPacketSize ∧ innerRet ≠ -1 then
        packetOf rtp args :: sentPackets authTagLen (rtp.counting args.ts
          (args.payloadHeader.length + args.payload.length) args.monotonicUs) rest
      else sentPackets authTagLen rtp rest
  | rtp, .setExtension element :: rest => sentPackets authTagLen (rtp.setExtension element) rest

/-! ## The counters of packet number `n` -/

def SrtpTransport.atIndex (self : SrtpTransport) (n : Nat) : SrtpTransport :=
  { self with roc := UInt32.ofNat (n / 65536), prevSeq := UInt16.ofNat n }

theorem SrtpTransport.trackSeq_atIndex (self : SrtpTransport) (previous n : Nat) (seq : UInt16)
    (counted : seq.toNat = n % 65536) (ordered : previous ≤ n)
    (close : n ≤ previous + 1 ∨ n / 65536 = previous / 65536) :
    (self.atIndex previous).trackSeq seq = self.atIndex n := by
  have rolled := rollover_exact 32768 previous n ordered (close.imp (fun _ => by omega) id)
  have seqWord : seq = UInt16.ofNat n := by
    apply UInt16.toNat_inj.mp
    rw [counted, UInt16.toNat_ofNat']
  have prevWord : (UInt16.ofNat previous).toNat = previous % 65536 := UInt16.toNat_ofNat'
  simp only [rollover, Nat.reduceMul] at rolled
  simp only [SrtpTransport.trackSeq, SrtpTransport.atIndex, UInt16.lt_iff_toNat_lt, prevWord,
    counted]
  congr 1
  rw [← rolled]
  split
  · rename_i wrapped
    rw [if_pos ⟨wrapped.1, wrapped.2⟩, UInt32.ofNat_add]
    rfl
  · rename_i unwrapped
    rw [if_neg (fun wrapped => unwrapped ⟨wrapped.1, wrapped.2⟩)]

theorem SrtpTransport.index_atIndex (self : SrtpTransport) (n : Nat) (seq : UInt16)
    (counted : seq.toNat = n % 65536) :
    (self.atIndex n).roc * 65536 + seq.toUInt32 = UInt32.ofNat n := by
  apply UInt32.toNat_inj.mp
  rw [UInt32.toNat_add, UInt32.toNat_mul, UInt16.toNat_toUInt32, counted, UInt32.toNat_ofNat']
  simp only [SrtpTransport.atIndex, UInt32.toNat_ofNat', UInt32.reduceToNat]
  omega

/-- Packet number `n` as a transport with these keys hands it over. -/
def SrtpTransport.protectAt (ops : CryptoSrtpOps) (self : SrtpTransport) (n : Nat)
    (rtp : RtpTransport) (args : SendArgs) : HandedSrtp :=
  (self.atIndex n).protect ops (packetOf rtp args) (12 + rtp.extensionHeader.length)
    (UInt32.ofNat n)

theorem SrtpTransport.transmit_atIndex (ops : CryptoSrtpOps) (innerRet : Int)
    (self : SrtpTransport) (previous n : Nat) (rtp : RtpTransport) (args : SendArgs)
    (counted : rtp.seqNum.toNat = n % 65536) (ordered : previous ≤ n)
    (close : n ≤ previous + 1 ∨ n / 65536 = previous / 65536) :
    SrtpTransport.transmit ops innerRet (self.atIndex previous)
        [rtp.headerBytes args.ts args.marker, args.payloadHeader, args.payload] =
      if srtpMaxPacketSize < (packetOf rtp args).length + self.authTagLen then
        ((self.atIndex previous, none), -1)
      else ((self.atIndex n, some (self.protectAt ops n rtp args)), innerRet) := by
  rw [SrtpTransport.transmit_packetOf, self.trackSeq_atIndex previous n _ counted ordered close,
    self.index_atIndex n _ counted]
  rfl

/-! ## The invariant -/

/-- An attempt numbered `n`. -/
structure AttemptAt (ops : CryptoSrtpOps) (keys : SrtpTransport) (first : RtpTransport) (n : Nat)
    (attempt : Attempt) : Prop where
  seqNum : attempt.rtp.seqNum.toNat = n % 65536
  ssrc : attempt.rtp.ssrc = first.ssrc
  payloadTy : attempt.rtp.payloadTy = first.payloadTy
  clockRate : attempt.rtp.clockRate = first.clockRate
  fits : (packetOf attempt.rtp attempt.args).length + keys.authTagLen ≤ srtpMaxPacketSize
  handed : attempt.handed = keys.protectAt ops n attempt.rtp attempt.args

def SrtpSender.next (self : SrtpSender) (first : RtpTransport) : Nat :=
  first.seqNum.toNat + self.attempts.countP Attempt.succeeded

structure SrtpSender.Sound (ops : CryptoSrtpOps) (keys : SrtpTransport) (first : RtpTransport)
    (sender : SrtpSender) : Prop where
  seqNum : sender.rtp.seqNum.toNat = sender.next first % 65536
  ssrc : sender.rtp.ssrc = first.ssrc
  payloadTy : sender.rtp.payloadTy = first.payloadTy
  clockRate : sender.rtp.clockRate = first.clockRate
  tracked : ∃ previous, sender.srtp = keys.atIndex previous ∧ previous ≤ sender.next first ∧
    (sender.next first ≤ previous + 1 ∨ sender.next first / 65536 = previous / 65536)
  numbered : Numbered (AttemptAt ops keys first) Attempt.succeeded first.seqNum.toNat
    sender.attempts

theorem SrtpSender.start_sound (ops : CryptoSrtpOps) (suite : SrtpSuite) (key : SrtpKeyMaterial)
    (rtp : RtpTransport) :
    (SrtpSender.start ops suite key rtp).Sound ops (transportSrtp ops suite key) rtp where
  seqNum := (Nat.mod_eq_of_lt rtp.seqNum.toNat_lt).symm
  ssrc := rfl
  payloadTy := rfl
  clockRate := rfl
  tracked := ⟨0, rfl, Nat.zero_le _, Or.inr (Nat.div_eq_of_lt rtp.seqNum.toNat_lt)⟩
  numbered := trivial

theorem SrtpSender.next_attempt (first rtp : RtpTransport) (srtp : SrtpTransport)
    (attempts : List Attempt) (attempt : Attempt) :
    SrtpSender.next ⟨rtp, srtp, attempts ++ [attempt]⟩ first =
      first.seqNum.toNat + attempts.countP Attempt.succeeded +
        if attempt.ret ≠ -1 then 1 else 0 := by
  rw [SrtpSender.next, List.countP_append, List.countP_singleton, Nat.add_assoc]
  simp only [Attempt.succeeded, decide_eq_true_eq]

/-- A send either is too long, and nothing happens, or is one more attempt with
the next number; only its success moves the number. -/
theorem SrtpSender.send_cases (ops : CryptoSrtpOps) (keys : SrtpTransport) (first : RtpTransport)
    (self : SrtpSender) (sound : self.Sound ops keys first) (args : SendArgs) (innerRet : Int) :
    srtpMaxPacketSize < (packetOf self.rtp args).length + keys.authTagLen ∧
        self.call ops (.send args innerRet) = .ok self ∨
      (packetOf self.rtp args).length + keys.authTagLen ≤ srtpMaxPacketSize ∧
        ∃ next, self.call ops (.send args innerRet) = .ok next ∧ next.Sound ops keys first ∧
          next.rtp = (if innerRet = -1 then self.rtp else self.rtp.counting args.ts
            (args.payloadHeader.length + args.payload.length) args.monotonicUs) ∧
          next.attempts = self.attempts ++
            [⟨self.rtp, args, keys.protectAt ops (self.next first) self.rtp args, innerRet⟩] := by
  obtain ⟨previous, tracked, ordered, close⟩ := sound.tracked
  have transmitted := SrtpTransport.transmit_atIndex ops innerRet keys previous (self.next first)
    self.rtp args sound.seqNum ordered close
  rw [← tracked] at transmitted
  simp only [SrtpSender.call, RtpTransport.sendPacket, self.rtp.serialize_header, ok_bind,
    transmitted]
  by_cases oversize : srtpMaxPacketSize < (packetOf self.rtp args).length + keys.authTagLen
  · left
    rw [if_pos oversize]
    refine ⟨oversize, ?_⟩
    simp
  · right
    rw [if_neg oversize]
    refine ⟨Nat.le_of_not_lt oversize, ?_⟩
    have here : AttemptAt ops keys first (self.next first)
        ⟨self.rtp, args, keys.protectAt ops (self.next first) self.rtp args, innerRet⟩ :=
      ⟨sound.seqNum, sound.ssrc, sound.payloadTy, sound.clockRate, Nat.le_of_not_lt oversize, rfl⟩
    have numbered := (Numbered.append _ _ _ _ _).mpr ⟨sound.numbered, here⟩
    by_cases succeeded : innerRet ≠ -1
    · simp only [if_pos succeeded, ok_bind, pure_eq_ok, Option.map_some, Option.toList_some]
      have count := fun rtp srtp => SrtpSender.next_attempt first rtp srtp self.attempts
        ⟨self.rtp, args, keys.protectAt ops (self.next first) self.rtp args, innerRet⟩
      simp only [if_pos succeeded] at count
      refine ⟨_, rfl, ⟨?_, sound.ssrc, sound.payloadTy, sound.clockRate, ?_, numbered⟩,
        (if_neg succeeded).symm, rfl⟩
      · have current := sound.seqNum
        rw [count, UInt16.toNat_add, current, SrtpSender.next]
        exact Nat.mod_add_mod _ _ _
      · rw [count]
        exact ⟨self.next first, rfl, Nat.le_succ _, Or.inl (Nat.le_refl _)⟩
    · simp only [if_neg succeeded, ok_bind, pure_eq_ok, Option.map_some, Option.toList_some]
      have count := fun rtp srtp => SrtpSender.next_attempt first rtp srtp self.attempts
        ⟨self.rtp, args, keys.protectAt ops (self.next first) self.rtp args, innerRet⟩
      simp only [if_neg succeeded] at count
      refine ⟨_, rfl, ⟨?_, sound.ssrc, sound.payloadTy, sound.clockRate, ?_, numbered⟩,
        (if_pos (not_not.mp succeeded)).symm, rfl⟩
      · rw [count]
        exact sound.seqNum
      · rw [count]
        exact ⟨self.next first, rfl, Nat.le_refl _, Or.inl (Nat.le_succ _)⟩

theorem SrtpSender.call_sound (ops : CryptoSrtpOps) (keys : SrtpTransport) (first : RtpTransport)
    (self : SrtpSender) (sound : self.Sound ops keys first) (call : SenderCall) :
    ∃ next, self.call ops call = .ok next ∧ next.Sound ops keys first := by
  cases call with
  | send args innerRet =>
      rcases SrtpSender.send_cases ops keys first self sound args innerRet with
        ⟨_, unchanged⟩ | ⟨_, next, called, kept, _⟩
      · exact ⟨self, unchanged, sound⟩
      · exact ⟨next, called, kept⟩
  | setExtension element =>
      obtain ⟨seqNum, ssrc, payloadTy, clockRate, tracked, numbered⟩ := sound
      exact ⟨_, rfl, seqNum, ssrc, payloadTy, clockRate, tracked, numbered⟩

theorem SrtpSender.run_sound (ops : CryptoSrtpOps) (keys : SrtpTransport) (first : RtpTransport)
    (calls : List SenderCall) (self : SrtpSender) (sound : self.Sound ops keys first) :
    ∃ final, SrtpSender.run ops calls self = .ok final ∧ final.Sound ops keys first := by
  induction calls generalizing self with
  | nil => exact ⟨self, rfl, sound⟩
  | cons call rest ih =>
      obtain ⟨next, called, kept⟩ := SrtpSender.call_sound ops keys first self sound call
      obtain ⟨final, ran, sound⟩ := ih next kept
      refine ⟨final, ?_, sound⟩
      rw [SrtpSender.run, called]
      exact ran

theorem SrtpSender.Sound.success {ops : CryptoSrtpOps} {keys : SrtpTransport}
    {first : RtpTransport} {sender : SrtpSender} (sound : sender.Sound ops keys first) (k : Nat)
    (inside : k < sender.successes.length) :
    AttemptAt ops keys first (first.seqNum.toNat + k) sender.successes[k] :=
  sound.numbered.getElem_filter k inside

/-- The successes of a run are the sends that are taken, in order. -/
theorem SrtpSender.run_packets (ops : CryptoSrtpOps) (keys : SrtpTransport) (first : RtpTransport)
    (calls : List SenderCall) (self final : SrtpSender) (sound : self.Sound ops keys first)
    (ran : SrtpSender.run ops calls self = .ok final) :
    final.successes.map Attempt.packet =
      self.successes.map Attempt.packet ++ sentPackets keys.authTagLen self.rtp calls := by
  induction calls generalizing self with
  | nil =>
      cases ran
      exact (List.append_nil _).symm
  | cons call rest ih =>
      obtain ⟨next, called, kept⟩ := SrtpSender.call_sound ops keys first self sound call
      rw [SrtpSender.run, called, ok_bind] at ran
      rw [ih next kept ran]
      cases call with
      | send args innerRet =>
          rw [sentPackets]
          rcases SrtpSender.send_cases ops keys first self sound args innerRet with
            ⟨oversize, unchanged⟩ | ⟨fits, next', called', _, counted, attempts⟩
          · obtain rfl := Except.ok.inj (called.symm.trans unchanged)
            rw [if_neg fun taken => Nat.not_le.mpr oversize taken.1]
          · obtain rfl := Except.ok.inj (called.symm.trans called')
            rw [SrtpSender.successes, attempts, List.filter_append, List.map_append, counted]
            by_cases failed : innerRet = -1
            · rw [if_pos failed, if_neg fun taken => taken.2 failed]
              simp [Attempt.succeeded, failed, SrtpSender.successes]
            · rw [if_neg failed, if_pos ⟨fits, failed⟩]
              simp [Attempt.succeeded, failed, SrtpSender.successes, Attempt.packet]
      | setExtension element =>
          obtain rfl := Except.ok.inj called
          rfl

theorem RtpTransport.extensionHeader_counting (rtp : RtpTransport) (ts : RtpTimestamp)
    (octets : Nat) (monotonicUs : UInt64) :
    (rtp.counting ts octets monotonicUs).extensionHeader = rtp.extensionHeader := rfl

theorem SrtpSender.run_sends (ops : CryptoSrtpOps) (keys : SrtpTransport) (first : RtpTransport)
    (sends : List SendArgs) (self : SrtpSender) (sound : self.Sound ops keys first)
    (fits : ∀ args ∈ sends,
      (packetOf self.rtp args).length + keys.authTagLen ≤ srtpMaxPacketSize) :
    ∃ final, SrtpSender.run ops (sends.map fun args => .send args 0) self = .ok final ∧
      final.Sound ops keys first ∧
      final.successes.map Attempt.args = self.successes.map Attempt.args ++ sends := by
  induction sends generalizing self with
  | nil => exact ⟨self, rfl, sound, (List.append_nil _).symm⟩
  | cons args rest ih =>
      rcases SrtpSender.send_cases ops keys first self sound args 0 with
        ⟨oversize, _⟩ | ⟨_, next, called, kept, counted, attempts⟩
      · exact absurd (fits args List.mem_cons_self) (Nat.not_le.mpr oversize)
      · have room : ∀ args ∈ rest,
            (packetOf next.rtp args).length + keys.authTagLen ≤ srtpMaxPacketSize := by
          intro args member
          rw [length_packetOf, counted, if_neg (by decide), RtpTransport.extensionHeader_counting,
            ← length_packetOf]
          exact fits args (List.mem_cons_of_mem _ member)
        obtain ⟨final, ran, sound, successes⟩ := ih next kept room
        refine ⟨final, ?_, sound, ?_⟩
        · rw [List.map_cons, SrtpSender.run, called]
          exact ran
        · rw [successes, SrtpSender.successes, attempts, List.filter_append, List.map_append,
            List.append_assoc]
          rfl

/-! ## The rollover counter -/

/-- The tag at the end of `wire` covers the rest of it and this ROC. -/
def AuthenticatedWith (ops : CryptoSrtpOps) (authKey : AuthKey) (authTagLen : AuthTagLen)
    (roc : UInt32) (wire : List UInt8) : Prop :=
  wire.drop (wire.length - authTagLen) =
    (ops.hmacSha1 authKey (wire.take (wire.length - authTagLen) ++ be32 roc)).toList.take authTagLen

theorem protect_authenticated (ops : CryptoSrtpOps) (self : SrtpTransport) (packet : List UInt8)
    (headerLen : Nat) (index : UInt32) :
    AuthenticatedWith ops self.authKey self.authTagLen self.roc
      (self.protect ops packet headerLen index).wire := by
  have tag := self.authTagLen.bounds
  simp only [AuthenticatedWith, SrtpTransport.protect]
  generalize packet.take headerLen ++ srtpEncryptPayload ops self.sessionKey self.sessionSalt
    (packetSsrc packet) index (packet.drop headerLen) = encrypted
  have size : (encrypted ++ (ops.hmacSha1 self.authKey
      (encrypted ++ be32 self.roc)).toList.take self.authTagLen).length - self.authTagLen =
      encrypted.length := by
    rw [List.length_append, List.length_take, Vector.length_toList]
    omega
  rw [size, List.drop_left, List.take_left]

/-- In every run the `k`-th success is authenticated with the number of times the
sequence number has wrapped by then. -/
theorem kth_success_roc (ops : CryptoSrtpOps) (suite : SrtpSuite) (key : SrtpKeyMaterial)
    (rtp : RtpTransport) (calls : List SenderCall) :
    ∃ sender, SrtpSender.run ops calls (SrtpSender.start ops suite key rtp) = .ok sender ∧
      ∀ k (inside : k < sender.successes.length),
        sender.successes[k].handed.roc = UInt32.ofNat ((rtp.seqNum.toNat + k) / 65536) ∧
        AuthenticatedWith ops (srtpKdf ops key labelSrtpAuth 20) suite.authTagLen
          (UInt32.ofNat ((rtp.seqNum.toNat + k) / 65536)) sender.successes[k].handed.wire := by
  obtain ⟨sender, ran, sound⟩ := SrtpSender.run_sound ops (transportSrtp ops suite key) rtp calls _
    (SrtpSender.start_sound ops suite key rtp)
  refine ⟨sender, ran, fun k inside => ?_⟩
  rw [(sound.success k inside).handed]
  exact ⟨rfl, protect_authenticated ops _ _ _ _⟩

end Compy.Srtp
