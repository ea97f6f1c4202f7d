import Compy.Rtp.Receiver
import Compy.Srtp.Delivery

/-!
# SRTP over UDP

`udp.c` on a connected socket, and the stack of transports that `setup_udp` of the example
server builds on it.  `send_packet` tries a datagram up to ten times, and from the socket it
cannot be told from an inner transport that answers once.
-/

set_option autoImplicit false

namespace Compy.Udp

open BigEndian CheckedBytes Compy.Rtp Compy.Srtp

variable {κ : Type}

/-! ## The socket -/

/-- What `sendmsg` answers; the kernel takes a datagram whole or not at all. -/
inductive SendmsgAnswer where
  | sent
  | emsgsize
  | failed

abbrev Sendmsg (κ : Type) := List UInt8 → κ → κ × SendmsgAnswer

/-- `datagrams` and `calls` are history: what the kernel has taken, and how often it was
called. -/
structure UdpSocket (κ : Type) where
  kernel : κ
  datagrams : List (List UInt8)
  calls : Nat

def UdpSocket.open (kernel : κ) : UdpSocket κ := ⟨kernel, [], 0⟩

def UdpSocket.sendmsg (sendmsg : Sendmsg κ) (self : UdpSocket κ) (message : List UInt8) :
    UdpSocket κ × SendmsgAnswer :=
  match sendmsg message self.kernel with
  | (kernel, .sent) => (⟨kernel, self.datagrams ++ [message], self.calls + 1⟩, .sent)
  | (kernel, answer) => (⟨kernel, self.datagrams, self.calls + 1⟩, answer)

def maxRetransmits : Nat := 10

/-- The loop of `send_packet` with `i` tries left. -/
def sendTries (sendmsg : Sendmsg κ) (message : List UInt8) : Nat → UdpSocket κ →
    UdpSocket κ × Int
  | 0, self => (self, -1)
  | i + 1, self =>
      match self.sendmsg sendmsg message with
      | (self, .sent) => (self, 0)
      | (self, .failed) => (self, -1)
      | (self, .emsgsize) => sendTries sendmsg message i self

/-- `Compy_UdpTransport_transmit`; `sendmsg` gathers the vectors into one datagram. -/
def UdpSocket.transmit (sendmsg : Sendmsg κ) (bufs : IoVecSlice) (self : UdpSocket κ) :
    UdpSocket κ × Int :=
  sendTries sendmsg bufs.flatten maxRetransmits self

/-- A call that returns 0 has put the message on the wire once, and any other not at all. -/
structure Transmitted (message : List UInt8) (tries : Nat) (socket next : UdpSocket κ) (ret : Int) :
    Prop where
  answered : ret = 0 ∨ ret = -1
  datagrams : next.datagrams = socket.datagrams ++ if ret = -1 then [] else [message]
  calls : next.calls ≤ socket.calls + tries

theorem sendTries_transmitted (sendmsg : Sendmsg κ) (message : List UInt8) (i : Nat)
    (self : UdpSocket κ) :
    Transmitted message i self (sendTries sendmsg message i self).1
      (sendTries sendmsg message i self).2 := by
  induction i generalizing self with
  | zero => exact ⟨Or.inr rfl, (List.append_nil _).symm, Nat.le_refl _⟩
  | succ i ih =>
      simp only [sendTries, UdpSocket.sendmsg]
      rcases sendmsg message self.kernel with ⟨kernel, answer⟩
      cases answer with
      | sent => exact ⟨Or.inl rfl, rfl, by dsimp only; omega⟩
      | failed => exact ⟨Or.inr rfl, (List.append_nil _).symm, by dsimp only; omega⟩
      | emsgsize =>
          obtain ⟨answered, datagrams, calls⟩ := ih ⟨kernel, self.datagrams, self.calls + 1⟩
          refine ⟨answered, datagrams, calls.trans ?_⟩
          dsimp only
          omega

theorem transmit_transmitted (sendmsg : Sendmsg κ) (bufs : IoVecSlice) (self : UdpSocket κ) :
    Transmitted bufs.flatten maxRetransmits self (self.transmit sendmsg bufs).1
      (self.transmit sendmsg bufs).2 :=
  sendTries_transmitted sendmsg bufs.flatten maxRetransmits self

/-! ## The stack -/

/-- `Compy_SrtpTransport_transmit` with a UDP transport as `inner`: one vector for what is
handed over. -/
def transmitSrtp (ops : CryptoSrtpOps) (sendmsg : Sendmsg κ) (srtp : SrtpTransport)
    (socket : UdpSocket κ) (bufs : IoVecSlice) : (SrtpTransport × UdpSocket κ) × Int :=
  match srtp.transmit ops 0 bufs with
  | ((srtp, none), ret) => ((srtp, socket), ret)
  | ((srtp, some handed), _) =>
      let (socket, ret) := socket.transmit sendmsg [handed.wire]
      ((srtp, socket), ret)

inductive UdpCall where
  | send (args : SendArgs)
  | setExtension (element : ExtensionElement)

def UdpCall.isSend : UdpCall → Bool
  | .send _ => true
  | .setExtension _ => false

/-- `taken` is history: the sends that have returned 0. -/
structure UdpSender (κ : Type) where
  rtp : RtpTransport
  srtp : SrtpTransport
  socket : UdpSocket κ
  taken : List SendArgs

def UdpSender.start (ops : CryptoSrtpOps) (suite : SrtpSuite) (key : SrtpKeyMaterial)
    (rtp : RtpTransport) (kernel : κ) : UdpSender κ :=
  ⟨rtp, transportSrtp ops suite key, .open kernel, []⟩

def UdpSender.call (ops : CryptoSrtpOps) (sendmsg : Sendmsg κ) (self : UdpSender κ) :
    UdpCall → Access (UdpSender κ)
  | .send args => do
      let (rtp, (srtp, socket), ret) ← self.rtp.sendPacket
        (transmitSrtp ops sendmsg self.srtp self.socket) args.ts args.marker args.payloadHeader
        args.payload args.monotonicUs
      return ⟨rtp, srtp, socket, self.taken ++ if ret = 0 then [args] else []⟩
  | .setExtension element => .ok { self with rtp := self.rtp.setExtension element }

def UdpSender.run (ops : CryptoSrtpOps) (sendmsg : Sendmsg κ) :
    List UdpCall → UdpSender κ → Access (UdpSender κ)
  | [], self => .ok self
  | call :: rest, self => do
      let next ← self.call ops sendmsg call
      UdpSender.run ops sendmsg rest next

/-! ## The sender it refines -/

/-- The datagrams are those of the successes of `sender`, one for each. -/
structure Refines (udp : UdpSender κ) (sender : SrtpSender) : Prop where
  rtp : udp.rtp = sender.rtp
  srtp : udp.srtp = sender.srtp
  datagrams : udp.socket.datagrams = sender.successes.map fun attempt => attempt.handed.wire
  taken : udp.taken = sender.successes.map Attempt.args

/-- Whether a transmit gets to the inner transport does not depend on its answer. -/
theorem transmit_stops_or_hands (ops : CryptoSrtpOps) (self : SrtpTransport) (bufs : IoVecSlice) :
    (∃ next, ∀ innerRet, self.transmit ops innerRet bufs = ((next, none), -1)) ∨
      ∃ next handed, ∀ innerRet,
        self.transmit ops innerRet bufs = ((next, some handed), innerRet) := by
  simp only [SrtpTransport.transmit]
  by_cases oversize : srtpMaxPacketSize < bufs.len + self.authTagLen
  · exact Or.inl ⟨self, fun _ => if_pos oversize⟩
  · simp only [if_neg oversize]
    by_cases short : bufs.len < 12
    · exact Or.inl ⟨self, fun _ => if_pos short⟩
    · simp only [if_neg short]
      cases srtpHeaderLen bufs.flatten with
      | none => exact Or.inl ⟨_, fun _ => rfl⟩
      | some headerLen => exact Or.inr ⟨_, _, fun _ => rfl⟩

theorem successes_attempt (rtp : RtpTransport) (srtp : SrtpTransport) (attempts : List Attempt)
    (attempt : Attempt) :
    SrtpSender.successes ⟨rtp, srtp, attempts ++ [attempt]⟩ =
      attempts.filter Attempt.succeeded ++ if attempt.ret = -1 then [] else [attempt] := by
  rw [SrtpSender.successes, List.filter_append, List.filter_singleton, Attempt.succeeded]
  by_cases failed : attempt.ret = -1
  · rw [if_pos failed, decide_eq_false (not_not_intro failed), Bool.cond_false]
  · rw [if_neg failed, decide_eq_true failed, Bool.cond_true]

theorem UdpSender.send_refines (ops : CryptoSrtpOps) (sendmsg : Sendmsg κ) (self : UdpSender κ)
    (sender : SrtpSender) (refines : Refines self sender) (args : SendArgs) :
    ∃ next innerRet sender', self.call ops sendmsg (.send args) = .ok next ∧
      sender.call ops (.send args innerRet) = .ok sender' ∧ Refines next sender' ∧
      next.socket.calls ≤ self.socket.calls + maxRetransmits := by
  obtain ⟨rtp, srtp, socket, before⟩ := self
  obtain ⟨rtp', srtp', attempts⟩ := sender
  obtain ⟨rfl, rfl, datagrams, taken⟩ := refines
  dsimp only [SrtpSender.successes] at datagrams taken ⊢
  simp only [UdpSender.call, SrtpSender.call]
  rcases transmit_stops_or_hands ops srtp [rtp.headerBytes args.ts args.marker,
    args.payloadHeader, args.payload] with ⟨moved, stops⟩ | ⟨moved, handed, hands⟩
  · refine ⟨⟨rtp, moved, socket, before⟩, 0, ⟨rtp, moved, attempts⟩, ?_, ?_,
      ⟨rfl, rfl, datagrams, taken⟩, Nat.le_add_right _ _⟩
    · rw [rtp.sendPacket_eq _ args.ts args.marker args.payloadHeader args.payload
        args.monotonicUs (moved, socket) (-1) (by rw [transmitSrtp, stops]), ok_bind]
      simp [pure_eq_ok]
    · rw [rtp.sendPacket_eq _ args.ts args.marker args.payloadHeader args.payload
        args.monotonicUs (moved, none) (-1) (stops 0), ok_bind]
      simp [pure_eq_ok]
  · obtain ⟨answered, put, calls⟩ := transmit_transmitted sendmsg [handed.wire] socket
    rw [List.flatten_singleton] at put
    have here := rtp.sendPacket_eq (transmitSrtp ops sendmsg srtp socket) args.ts args.marker
      args.payloadHeader args.payload args.monotonicUs (moved, _) _ (by rw [transmitSrtp, hands])
    generalize (socket.transmit sendmsg [handed.wire]).1 = socket' at put calls here
    generalize (socket.transmit sendmsg [handed.wire]).2 = ret at put answered here
    have there := rtp.sendPacket_eq (srtp.transmit ops ret) args.ts args.marker
      args.payloadHeader args.payload args.monotonicUs (moved, some handed) ret (hands ret)
    generalize (if ret = -1 then rtp else _) = rtp' at here there
    refine ⟨⟨rtp', moved, socket', before ++ if ret = 0 then [args] else []⟩, ret,
      ⟨rtp', moved, attempts ++ [⟨rtp, args, handed, ret⟩]⟩, ?_, ?_, ⟨rfl, rfl, ?_, ?_⟩, calls⟩
    · rw [here, ok_bind]
      rfl
    · rw [there, ok_bind]
      rfl
    · rw [put, datagrams, successes_attempt]
      rcases answered with rfl | rfl
      · simp
      · simp
    · rw [taken, successes_attempt]
      rcases answered with rfl | rfl
      · simp
      · simp

theorem UdpSender.call_refines (ops : CryptoSrtpOps) (sendmsg : Sendmsg κ) (self : UdpSender κ)
    (sender : SrtpSender) (refines : Refines self sender) (call : UdpCall) :
    ∃ next call' sender', self.call ops sendmsg call = .ok next ∧
      sender.call ops call' = .ok sender' ∧ Refines next sender' ∧
      next.socket.calls ≤ self.socket.calls + if call.isSend then maxRetransmits else 0 := by
  cases call with
  | send args =>
      obtain ⟨next, innerRet, sender', called, called', refines', calls⟩ :=
        UdpSender.send_refines ops sendmsg self sender refines args
      exact ⟨next, .send args innerRet, sender', called, called', refines', calls⟩
  | setExtension element =>
      obtain ⟨rtp, srtp, datagrams, taken⟩ := refines
      refine ⟨_, .setExtension element, _, rfl, rfl, ⟨?_, srtp, datagrams, taken⟩, Nat.le_refl _⟩
      dsimp only
      rw [rtp]

/-- A run of the stack is a run of the sender. -/
theorem UdpSender.run_refines (ops : CryptoSrtpOps) (sendmsg : Sendmsg κ) (calls : List UdpCall)
    (self : UdpSender κ) (sender : SrtpSender) (refines : Refines self sender) :
    ∃ final calls' sender', self.run ops sendmsg calls = .ok final ∧
      SrtpSender.run ops calls' sender = .ok sender' ∧ Refines final sender' ∧
      final.socket.calls ≤ self.socket.calls + maxRetransmits * calls.countP UdpCall.isSend := by
  induction calls generalizing self sender with
  | nil => exact ⟨self, [], sender, rfl, rfl, refines, Nat.le_refl _⟩
  | cons call rest ih =>
      obtain ⟨next, call', middle, called, called', refines', tried⟩ :=
        UdpSender.call_refines ops sendmsg self sender refines call
      obtain ⟨final, rest', last, ran, ran', kept, bound⟩ := ih next middle refines'
      refine ⟨final, call' :: rest', last, ?_, ?_, kept, ?_⟩
      · rw [UdpSender.run, called, ok_bind]
        exact ran
      · rw [SrtpSender.run, called', ok_bind]
        exact ran'
      · rw [List.countP_cons]
        split at tried
        · rename_i sends
          rw [if_pos sends, Nat.mul_add]
          omega
        · rename_i other
          rw [if_neg other, Nat.add_zero]
          omega

/-! ## The other end -/

variable {ι : Type} {sender : SrtpSender}

def audioCall (rtp : RtpTransport) (args : SendArgs) : AudioCall :=
  ⟨rtp.payloadTy, computeTimestamp args.ts rtp.clockRate, rtp.ssrc,
    args.payloadHeader ++ args.payload⟩

/-- Behind the receive context `Compy_RtpReceiver` hears the send that the datagram is from. -/
inductive Heard (handleIncoming : ι → List UInt8 → ι × Int) (rtcp : Option ι)
    (first : RtpTransport) : Arrival sender → RecvOutcome → Prop where
  | genuine {k : Fin sender.successes.length} {slack : List UInt8} {out : RecvOutcome}
      (accepted : out.ret = 0)
      (numbered : (packetSeq (out.data.take out.len)).toNat = (first.seqNum.toNat + k) % 2 ^ 16)
      (fed : RtpReceiver.feed handleIncoming ⟨rtcp, true⟩ channelRtp (out.data.take out.len) =
        .ok (⟨rtcp, true⟩, [audioCall first sender.successes[k].args], 0)) :
      Heard handleIncoming rtcp first (.genuine k slack) out
  | forged {datagram : Datagram} {out : RecvOutcome} (refused : out.ret = -1) :
      Heard handleIncoming rtcp first (.forged datagram) out

theorem feed_packetOf (handleIncoming : ι → List UInt8 → ι × Int) (rtcp : Option ι)
    (rtp : RtpTransport) (type : rtp.payloadTy < 128) (args : SendArgs) :
    RtpReceiver.feed handleIncoming ⟨rtcp, true⟩ channelRtp (packetOf rtp args) =
      .ok (⟨rtcp, true⟩, [audioCall rtp args], 0) := by
  have fed := RtpReceiver.feed_packet handleIncoming rtcp _
    (rtp.packet_wellFormed args.ts args.marker (args.payloadHeader ++ args.payload))
  have second : (rtp.packet args.ts args.marker (args.payloadHeader ++ args.payload)).second &&&
      0x7F = rtp.payloadTy := payloadTy_second rtp.payloadTy type args.marker
  rw [rtp.bytes_packet, second] at fed
  exact fed

theorem Heard.of_restored (handleIncoming : ι → List UInt8 → ι × Int) (rtcp : Option ι)
    {ops : CryptoSrtpOps} {keys : SrtpTransport} {first : RtpTransport}
    (type : first.payloadTy < 128) (sound : sender.Sound ops keys first)
    (arrival : Arrival sender) (out : RecvOutcome) (restored : Restored arrival out) :
    Heard handleIncoming rtcp first arrival out := by
  cases arrival with
  | forged datagram => exact .forged restored
  | genuine k slack =>
      obtain ⟨accepted, _, packet⟩ := restored
      have success : AttemptAt ops keys first (first.seqNum.toNat + k) sender.successes[k] :=
        sound.success k k.isLt
      have same : audioCall sender.successes[k].rtp sender.successes[k].args =
          audioCall first sender.successes[k].args := by
        rw [audioCall, success.payloadTy, success.ssrc, success.clockRate]
        rfl
      have sent : sender.successes[k].packet =
          packetOf sender.successes[k].rtp sender.successes[k].args := rfl
      refine .genuine accepted ?_ ?_
      · rw [packet, sent, packetSeq_packetOf]
        exact success.seqNum
      · rw [packet, sent, feed_packetOf handleIncoming rtcp _ (success.payloadTy ▸ type), same]

theorem ivs_nodup {ops : CryptoSrtpOps} {keys : SrtpTransport} {first : RtpTransport}
    (sound : sender.Sound ops keys first) (few : sender.successes.length ≤ 2 ^ 32) :
    (sender.successes.map fun attempt => attempt.handed.iv).Nodup := by
  rw [List.Nodup, List.pairwise_iff_getElem]
  simp only [List.length_map, List.getElem_map]
  intro i j left right less same
  have index := ((sound.success i left).iv_eq_iff (sound.success j right)).mp same
  omega

/-- Whatever the kernel answers, the datagrams are those of the sends that have returned 0,
each once and under an IV of its own, and every orderly delivery of them is heard. -/
theorem datagrams_heard (ops : CryptoSrtpOps) (keystream : Key → Iv → Nat → UInt8)
    (xors : CtrXors ops keystream) (suite : SrtpSuite) (key : SrtpKeyMaterial)
    (rtp : RtpTransport) (type : rtp.payloadTy < 128) (sendmsg : Sendmsg κ) (kernel : κ)
    (calls : List UdpCall) (handleIncoming : ι → List UInt8 → ι × Int) (rtcp : Option ι) :
    ∃ final sender, UdpSender.run ops sendmsg calls (.start ops suite key rtp kernel) = .ok final ∧
      final.socket.calls ≤ maxRetransmits * calls.countP UdpCall.isSend ∧
      Refines final sender ∧ sender.Sound ops (transportSrtp ops suite key) rtp ∧
      (final.taken.length ≤ 2 ^ 32 →
        (sender.successes.map fun attempt => attempt.handed.iv).Nodup) ∧
      ∀ arrivals : List (Arrival sender),
        Receiver.Along (srtpLink ops rtp)
            (fun receiver arrival => receiver.Orderly ops rtp arrival ∧ receiver.Within rtp arrival)
            arrivals (Receiver.start ops suite key) →
        ∃ receiver,
          Receiver.run (srtpLink ops rtp) arrivals (Receiver.start ops suite key) =
            .ok receiver ∧
          receiver.outcomes.map Prod.fst = arrivals ∧
          ∀ arrival out, (arrival, out) ∈ receiver.outcomes →
            Heard handleIncoming rtcp rtp arrival out := by
  obtain ⟨final, calls', sender, ran, ran', refines, bound⟩ := UdpSender.run_refines ops sendmsg
    calls (.start ops suite key rtp kernel) (.start ops suite key rtp) ⟨rfl, rfl, rfl, rfl⟩
  obtain ⟨same, found, sound⟩ := SrtpSender.run_sound ops (transportSrtp ops suite key) rtp calls' _
    (SrtpSender.start_sound ops suite key rtp)
  obtain rfl := Except.ok.inj (ran'.symm.trans found)
  refine ⟨final, sender, ran, ?_, refines, sound, ?_, fun arrivals along => ?_⟩
  · exact bound.trans (Nat.le_of_eq (Nat.zero_add _))
  · intro few
    rw [refines.taken, List.length_map] at few
    exact ivs_nodup sound few
  · obtain ⟨receiver, received, kept, all⟩ := Receiver.run_sound ops keystream xors suite key rtp
      sound arrivals _ (Receiver.start_sound ops suite key) along
    refine ⟨receiver, received, all, fun arrival out member => ?_⟩
    exact Heard.of_restored handleIncoming rtcp type sound arrival out
      (kept.restored arrival out member)

/-- A kernel that turns datagrams away `refusals` times, as too long. -/
def reluctant : Sendmsg Nat := fun _ refusals =>
  match refusals with
  | 0 => (0, .sent)
  | refusals + 1 => (refusals, .emsgsize)

/-- The first send does not get through, the second one needs two tries more. -/
example : (sendTries reluctant [1] maxRetransmits (.open 12)).2 = -1 ∧
    (sendTries reluctant [1] maxRetransmits (.open 2)).2 = 0 := by decide

def twoSends : List UdpCall := [.send (oneByte 0), .setExtension audioLevel, .send (oneByte 1)]

theorem twoSends_taken :
    (UdpSender.run referenceOps reluctant twoSends (.start referenceOps .aesCm128HmacSha1_80
      zeroMaster newRtp 2)).map (fun final => final.taken) = .ok [oneByte 0, oneByte 1] := rfl

theorem twoSends_heard :
    ∃ final sender, UdpSender.run referenceOps reluctant twoSends
        (.start referenceOps .aesCm128HmacSha1_80 zeroMaster newRtp 2) = .ok final ∧
      final.socket.calls ≤ maxRetransmits * twoSends.countP UdpCall.isSend ∧
      Refines final sender ∧
      sender.Sound referenceOps (transportSrtp referenceOps .aesCm128HmacSha1_80 zeroMaster)
        newRtp ∧
      (sender.successes.map fun attempt => attempt.handed.iv).Nodup ∧
      ∃ one : 1 < sender.successes.length,
        ∃ receiver, Receiver.run (srtpLink referenceOps newRtp) (swapped one)
            (Receiver.start referenceOps .aesCm128HmacSha1_80 zeroMaster) = .ok receiver ∧
          receiver.outcomes.map Prod.fst = swapped one ∧
          ∀ arrival out, (arrival, out) ∈ receiver.outcomes →
            Heard (fun (_ : Unit) _ => ((), 0)) none newRtp arrival out := by
  obtain ⟨final, sender, ran, calls, refines, sound, nodup, hears⟩ := datagrams_heard referenceOps
    Aes128.keystream referenceOps_xors .aesCm128HmacSha1_80 zeroMaster newRtp (by decide) reluctant
    2 twoSends (fun (_ : Unit) _ => ((), 0)) none
  have taken : final.taken = [oneByte 0, oneByte 1] := by
    have taken := twoSends_taken
    rw [ran] at taken
    exact Except.ok.inj taken
  have count : final.taken.length = 2 := congrArg List.length taken
  have one : 1 < sender.successes.length := by
    rw [refines.taken, List.length_map] at count
    omega
  exact ⟨final, sender, ran, calls, refines, sound, nodup (by omega), one, hears _
    (swapped_along one)⟩

end Compy.Udp
