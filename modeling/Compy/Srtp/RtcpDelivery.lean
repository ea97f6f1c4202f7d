import Compy.Library.AttemptLog
import Compy.Srtp.ReceiveEffects
import Compy.Srtp.Receiver
import Compy.Srtp.Unprotect

/-!
# Delivery of protected RTCP packets

The SRTCP sender moves its index with every packet it hands over, whatever the
inner transport answers, and writes it on the wire.  Nothing has to be estimated:
the receiver's window decides by the index it reads, and every packet handed over
is restored in any order the window allows.
-/

set_option autoImplicit false

namespace Compy.Srtp

open BigEndian CheckedBytes Compy.Rtp ReplayWindow AttemptLog

/-! ## The sender -/

structure SrtcpSender where
  srtcp : SrtcpTransport
  handed : List HandedSrtcp

structure RtcpSend where
  bufs : IoVecSlice
  innerRet : Int

def SrtcpSender.start (ops : CryptoSrtpOps) (suite : SrtpSuite) (key : SrtpKeyMaterial) :
    SrtcpSender := ⟨transportSrtcp ops suite key, []⟩

def SrtcpSender.send (ops : CryptoSrtpOps) (self : SrtcpSender) (call : RtcpSend) :
    SrtcpSender :=
  let ((srtcp, handed), _) := self.srtcp.transmit ops call.innerRet call.bufs
  ⟨srtcp, self.handed ++ handed.toList⟩

def SrtcpSender.run (ops : CryptoSrtpOps) (calls : List RtcpSend) (self : SrtcpSender) :
    SrtcpSender := calls.foldl (SrtcpSender.send ops) self

/-- The packets that are long enough and not too long, as the callers have put them together. -/
def acceptedPackets (authTagLen : Nat) (calls : List RtcpSend) : List (List UInt8) :=
  (calls.map fun call => call.bufs.flatten).filter fun packet =>
    decide (8 ≤ packet.length ∧ packet.length + 4 + authTagLen ≤ srtpMaxPacketSize)

def SrtcpTransport.atIndex (self : SrtcpTransport) (n : Nat) : SrtcpTransport :=
  { self with srtcpIndex := UInt32.ofNat n }

/-- The packet with index `n`. -/
structure HandedAt (ops : CryptoSrtpOps) (keys : SrtcpTransport) (n : Nat) (handed : HandedSrtcp) :
    Prop where
  long : 8 ≤ handed.packet.length
  wire : handed = (keys.atIndex n).protect ops handed.packet

structure SrtcpSender.Sound (ops : CryptoSrtpOps) (keys : SrtcpTransport) (sender : SrtcpSender) :
    Prop where
  counted : sender.srtcp = keys.atIndex sender.handed.length
  numbered : Numbered (HandedAt ops keys) (fun _ => true) 0 sender.handed

theorem SrtcpSender.start_sound (ops : CryptoSrtpOps) (suite : SrtpSuite)
    (key : SrtpKeyMaterial) :
    (SrtcpSender.start ops suite key).Sound ops (transportSrtcp ops suite key) where
  counted := rfl
  numbered := trivial

theorem SrtcpSender.send_sound (ops : CryptoSrtpOps) (keys : SrtcpTransport) (self : SrtcpSender)
    (call : RtcpSend) (sound : self.Sound ops keys) :
    (self.send ops call).Sound ops keys ∧
      (self.send ops call).handed.length ≤ self.handed.length + 1 := by
  unfold SrtcpSender.send SrtcpTransport.transmit
  simp only [IoVecSlice.len_eq]
  split
  · simp only [Option.toList_none, List.append_nil]
    exact ⟨sound, Nat.le_succ _⟩
  · split
    · simp only [Option.toList_none, List.append_nil]
      exact ⟨sound, Nat.le_succ _⟩
    · rename_i long
      simp only [Option.toList_some]
      refine ⟨⟨?_, ?_⟩, ?_⟩
      · rw [List.length_append, List.length_singleton, sound.counted]
        simp only [SrtcpTransport.atIndex, UInt32.ofNat_add]
        rfl
      · rw [Numbered.append, List.countP_true, Nat.zero_add]
        refine ⟨sound.numbered, Nat.le_of_not_lt long, ?_⟩
        rw [← sound.counted]
        rfl
      · rw [List.length_append, List.length_singleton]

theorem SrtcpSender.run_sound (ops : CryptoSrtpOps) (keys : SrtcpTransport)
    (calls : List RtcpSend) (self : SrtcpSender) (sound : self.Sound ops keys) :
    (SrtcpSender.run ops calls self).Sound ops keys ∧
      (SrtcpSender.run ops calls self).handed.length ≤ self.handed.length + calls.length := by
  induction calls generalizing self with
  | nil => exact ⟨sound, Nat.le_refl _⟩
  | cons call rest ih =>
      obtain ⟨kept, grown⟩ := SrtcpSender.send_sound ops keys self call sound
      obtain ⟨sound, bound⟩ := ih (self.send ops call) kept
      refine ⟨sound, Nat.le_trans bound ?_⟩
      rw [List.length_cons]
      omega

theorem acceptedPackets_singleton (authTagLen : Nat) (call : RtcpSend) :
    acceptedPackets authTagLen [call] =
      if 8 ≤ call.bufs.flatten.length ∧
        call.bufs.flatten.length + 4 + authTagLen ≤ srtpMaxPacketSize then [call.bufs.flatten]
      else [] := by
  rw [acceptedPackets, List.map_singleton, List.filter_cons, List.filter_nil]
  simp only [decide_eq_true_eq]

theorem SrtcpSender.send_packets (ops : CryptoSrtpOps) (keys : SrtcpTransport) (self : SrtcpSender)
    (call : RtcpSend) (sound : self.Sound ops keys) :
    (self.send ops call).handed.map HandedSrtcp.packet =
      self.handed.map HandedSrtcp.packet ++ acceptedPackets keys.authTagLen [call] := by
  have tag : self.srtcp.authTagLen = keys.authTagLen := by
    rw [sound.counted]
    rfl
  rw [acceptedPackets_singleton]
  unfold SrtcpSender.send SrtcpTransport.transmit
  simp only [IoVecSlice.len_eq, tag]
  by_cases oversize : srtpMaxPacketSize < call.bufs.flatten.length + 4 + keys.authTagLen
  · rw [if_pos oversize, if_neg fun fits => Nat.not_le.mpr oversize fits.2]
    simp
  · rw [if_neg oversize]
    by_cases short : call.bufs.flatten.length < 8
    · rw [if_pos short, if_neg fun fits => Nat.not_le.mpr short fits.1]
      simp
    · rw [if_neg short, if_pos ⟨Nat.le_of_not_lt short, Nat.le_of_not_lt oversize⟩]
      simp [SrtcpTransport.protect]

theorem SrtcpSender.run_packets (ops : CryptoSrtpOps) (keys : SrtcpTransport)
    (calls : List RtcpSend) (self : SrtcpSender) (sound : self.Sound ops keys) :
    (SrtcpSender.run ops calls self).handed.map HandedSrtcp.packet =
      self.handed.map HandedSrtcp.packet ++ acceptedPackets keys.authTagLen calls := by
  induction calls generalizing self with
  | nil => exact (List.append_nil _).symm
  | cons call rest ih =>
      have more := ih (self.send ops call) (SrtcpSender.send_sound ops keys self call sound).1
      rw [SrtcpSender.send_packets ops keys self call sound, List.append_assoc, acceptedPackets,
        acceptedPackets, ← List.filter_append, ← List.map_append] at more
      exact more

theorem SrtcpSender.Sound.getElem {ops : CryptoSrtpOps} {keys : SrtcpTransport}
    {sender : SrtcpSender} (sound : sender.Sound ops keys) (k : Fin sender.handed.length) :
    HandedAt ops keys k sender.handed[k] := by
  have here := sound.numbered.getElem k k.isLt
  rw [List.countP_true, List.length_take, Nat.min_eq_left (Nat.le_of_lt k.isLt),
    Nat.zero_add] at here
  exact here

/-! ## Arrivals -/

variable {sender : SrtcpSender}

/-- A packet that was handed over, in an array that may be longer. -/
structure RtcpArrival (sender : SrtcpSender) where
  k : Fin sender.handed.length
  slack : List UInt8

def RtcpArrival.data (self : RtcpArrival sender) : List UInt8 :=
  sender.handed[self.k].wire ++ self.slack

def srtcpLink (ops : CryptoSrtpOps) : Link (RtcpArrival sender) where
  recv ctx arrival :=
    srtcpRecvUnprotect ops ctx arrival.data sender.handed[arrival.k].wire.length
  number arrival := some arrival.k

/-- A packet arrives once and less than 64 behind the highest. -/
def RtcpArrival.Orderly (receiver : Receiver (RtcpArrival sender)) (arrival : RtcpArrival sender) :
    Prop :=
  arrival.k.val ∉ receiver.delivered ∧
    ∀ highest, IsGreatest {i | i ∈ receiver.delivered} highest → highest < arrival.k + 64

def RtcpArrival.Restored (arrival : RtcpArrival sender) (out : RecvOutcome) : Prop :=
  out.ret = 0 ∧ out.len = sender.handed[arrival.k].packet.length ∧
    out.data.take out.len = sender.handed[arrival.k].packet

structure RtcpArrival.Sound (ops : CryptoSrtpOps) (suite : SrtpSuite) (key : SrtpKeyMaterial)
    (receiver : Receiver (RtcpArrival sender)) : Prop where
  session : receiver.ctx.session = (srtpRecvNew ops suite key).session
  tracks : Tracks {i | i ∈ receiver.delivered} receiver.ctx.srtcpHighestIndex.toNat
    receiver.ctx.srtcpReplayWindow
  restored : ∀ arrival out, (arrival, out) ∈ receiver.outcomes → arrival.Restored out

theorem RtcpArrival.start_sound (ops : CryptoSrtpOps) (suite : SrtpSuite)
    (key : SrtpKeyMaterial) :
    RtcpArrival.Sound ops suite key
      (Receiver.start ops suite key : Receiver (RtcpArrival sender)) := by
  refine ⟨rfl, (History.start_sound ops suite key).srtcp, ?_⟩
  intro arrival out member
  contradiction

theorem RtcpArrival.receive_sound (ops : CryptoSrtpOps) (keystream : Key → Iv → Nat → UInt8)
    (xors : CtrXors ops keystream) (suite : SrtpSuite) (key : SrtpKeyMaterial)
    (sent : sender.Sound ops (transportSrtcp ops suite key))
    (few : sender.handed.length ≤ 2 ^ 31) (receiver : Receiver (RtcpArrival sender))
    (arrival : RtcpArrival sender) (sound : RtcpArrival.Sound ops suite key receiver)
    (orderly : arrival.Orderly receiver) :
    ∃ out next, receiver.receive (srtcpLink ops) arrival = .ok next ∧
      RtcpArrival.Sound ops suite key next ∧
      next.outcomes = receiver.outcomes ++ [(arrival, out)] := by
  obtain ⟨new, near⟩ := orderly
  have handed := sent.getElem arrival.k
  have inside := arrival.k.isLt
  have index : (UInt32.ofNat arrival.k).toNat = arrival.k := by
    rw [UInt32.toNat_ofNat', Nat.mod_eq_of_lt (by omega)]
  have shares : SharesSrtcp ((transportSrtcp ops suite key).atIndex arrival.k) receiver.ctx :=
    ⟨congrArg SrtpSession.srtcpKey sound.session, congrArg SrtpSession.srtcpSalt sound.session,
      congrArg SrtpSession.srtcpAuthKey sound.session,
      congrArg SrtpSession.authTagLen sound.session⟩
  have acceptable : Acceptable receiver.ctx.srtcpHighestIndex.toNat
      receiver.ctx.srtcpReplayWindow (UInt32.ofNat arrival.k).toNat := by
    rw [sound.tracks.acceptable_iff (by decide), index,
      fresh_iff_highest _ (List.finite_toSet _)]
    refine ⟨new, fun highest top => ?_⟩
    have := near highest top
    omega
  have passes : srtcpReplayStep receiver.ctx (UInt32.ofNat arrival.k) ≠ none := fun refused =>
    (srtcpReplayStep_none _ _).mp refused acceptable
  obtain ⟨moved, accepted⟩ := Option.ne_none_iff_exists'.mp passes
  have advanced := srtcpReplayStep_advance _ _ _ accepted
  obtain ⟨_, _, frame⟩ := srtcpReplayStep_frame _ _ _ accepted
  have small : ((transportSrtcp ops suite key).atIndex arrival.k).srtcpIndex.toNat < 2 ^ 31 :=
    lt_of_eq_of_lt index (Nat.lt_of_lt_of_le inside few)
  obtain ⟨length, rest, returned⟩ := srtcpRecvUnprotect_protect ops keystream xors
    ((transportSrtcp ops suite key).atIndex arrival.k) receiver.ctx moved shares
    sender.handed[arrival.k].packet arrival.slack handed.long small accepted
  rw [← length, ← handed.wire] at returned
  refine ⟨_, _, Receiver.receive_ok (srtcpLink ops) receiver arrival _ returned, ?_, rfl⟩
  refine ⟨?_, ?_, ?_⟩
  · rw [← sound.session, frame]
    rfl
  · have tracked := sound.tracks.advance arrival.k
    rw [← setOf_mem_cons, ← index, ← advanced, index] at tracked
    exact tracked
  · intro other out member
    rcases List.mem_append.mp member with old | latest
    · exact sound.restored other out old
    · obtain ⟨rfl, rfl⟩ := Prod.mk.inj (List.mem_singleton.mp latest)
      exact ⟨rfl, rfl, List.take_left' rfl⟩

/-- A run that stays within the 31 bits of the index hands over every acceptable packet, and
every orderly delivery restores them. -/
theorem rtcp_delivery_restores (ops : CryptoSrtpOps) (keystream : Key → Iv → Nat → UInt8)
    (xors : CtrXors ops keystream) (suite : SrtpSuite) (key : SrtpKeyMaterial)
    (calls : List RtcpSend) (few : calls.length < 2 ^ 31)
    (arrivals : List (RtcpArrival (SrtcpSender.run ops calls (SrtcpSender.start ops suite key))))
    (orderly : Receiver.Along (srtcpLink ops) (fun receiver arrival => arrival.Orderly receiver)
      arrivals (Receiver.start ops suite key)) :
    (SrtcpSender.run ops calls (SrtcpSender.start ops suite key)).handed.map HandedSrtcp.packet =
        acceptedPackets suite.authTagLen calls ∧
      ∃ final, Receiver.run (srtcpLink ops) arrivals (Receiver.start ops suite key) = .ok final ∧
        final.outcomes.map Prod.fst = arrivals ∧
        ∀ arrival out, (arrival, out) ∈ final.outcomes → arrival.Restored out := by
  obtain ⟨sent, bound⟩ := SrtcpSender.run_sound ops (transportSrtcp ops suite key) calls _
    (SrtcpSender.start_sound ops suite key)
  have fits : (SrtcpSender.run ops calls (SrtcpSender.start ops suite key)).handed.length ≤
      2 ^ 31 := by
    rw [SrtcpSender.start, List.length_nil, Nat.zero_add] at bound
    exact Nat.le_trans bound (Nat.le_of_lt few)
  obtain ⟨final, ran, sound, all⟩ := Receiver.run_keeps (srtcpLink ops) _
    (RtcpArrival.Sound ops suite key)
    (RtcpArrival.receive_sound ops keystream xors suite key sent fits) arrivals _
    (RtcpArrival.start_sound ops suite key) orderly
  have packets := SrtcpSender.run_packets ops (transportSrtcp ops suite key) calls _
    (SrtcpSender.start_sound ops suite key)
  exact ⟨packets, final, ran, all, sound.restored⟩

def twoRtcpSends : List RtcpSend :=
  [⟨[[0x80, 0xC9, 0, 1], [0, 0, 0, 1]], -1⟩, ⟨[[0x80, 0xC9, 0, 1, 0, 0, 0, 1]], 0⟩]

def twoRtcpSender : SrtcpSender := SrtcpSender.run referenceOps twoRtcpSends
  (SrtcpSender.start referenceOps .aesCm128HmacSha1_80 zeroMaster)

theorem twoRtcpSender_handed : twoRtcpSender.handed.length = 2 := rfl

def swappedRtcp : List (RtcpArrival twoRtcpSender) :=
  [⟨⟨1, by rw [twoRtcpSender_handed]; decide⟩, []⟩, ⟨⟨0, by rw [twoRtcpSender_handed]; decide⟩, []⟩]

theorem swapped_rtcp_restored :
    twoRtcpSender.handed.map HandedSrtcp.packet =
        acceptedPackets (SrtpSuite.aesCm128HmacSha1_80).authTagLen twoRtcpSends ∧
      ∃ final, Receiver.run (srtcpLink referenceOps) swappedRtcp
          (Receiver.start referenceOps .aesCm128HmacSha1_80 zeroMaster) = .ok final ∧
        final.outcomes.map Prod.fst = swappedRtcp ∧
        ∀ arrival out, (arrival, out) ∈ final.outcomes → arrival.Restored out := by
  refine rtcp_delivery_restores referenceOps Aes128.keystream referenceOps_xors
    .aesCm128HmacSha1_80 zeroMaster twoRtcpSends (by decide) swappedRtcp ?_
  refine ⟨⟨List.not_mem_nil, fun highest top => absurd top.1 List.not_mem_nil⟩, ?_⟩
  intro second received
  have delivered := Receiver.receive_delivered (srtcpLink referenceOps) _ second _ received
  have one : second.delivered = [1] := delivered
  refine ⟨⟨?_, fun highest top => ?_⟩, fun _ _ => trivial⟩
  · rw [one]
    decide
  · rw [one] at top
    have greatest : highest = 1 := List.mem_singleton.mp top.1
    rw [greatest]
    decide

end Compy.Srtp
