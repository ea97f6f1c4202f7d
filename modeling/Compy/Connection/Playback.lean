import Compy.Connection.Demultiplex
import Compy.Nal.OverSrtp
import Compy.Nal.Player
import Compy.Rtp.AudioPlayer
import Compy.Rtp.Receiver

/-!
# A file played over a connection

The video player of the example server over an RTP transport over a TCP transport, on a
connection that carries responses and other frames between the periods.  A client that reads
the connection finds the file on the channel of the video.
-/

set_option autoImplicit false

namespace Compy.Connection

open BigEndian CheckedBytes Delimited Framing IncrementalParsing Compy.Nal Compy.Rtp Compy.Rtsp Compy.Tcp

variable {W : Type}

/-- An RTP transport and the writer below it; the clock has been read `sent` times. -/
structure RtpStream (W : Type) where
  rtp : RtpTransport
  self : W
  sent : Nat

/-- How the packets of a stream get to the writer. -/
structure StreamConfig where
  transport : TcpTransport
  allocated : Bool
  clock : Nat → UInt64

variable (w : Writer W) (config : StreamConfig)

/-- `Compy_RtpTransport_send_packet` over `compy_transport_tcp`. -/
def tcpSend : TimedSend (RtpStream W) := fun ts marker payloadHeader payload stream => do
  let transmit (bufs : IoVecSlice) : W × Int :=
    let (ret, self) := (WriterUse.transmit ⟨config.transport, bufs, config.allocated⟩).run w
      stream.self
    (self, ret)
  let (rtp, self, ret) ← stream.rtp.sendPacket transmit ts marker payloadHeader payload
    (config.clock stream.sent)
  return (⟨rtp, self, stream.sent + 1⟩, ret)

def playEvent : Option WriterUse → PlayEvent (RtpStream W)
  | none => .period
  | some use => .meanwhile fun stream => { stream with self := (use.run w stream.self).2 }

def WriterUse.on (channelId : UInt8) : WriterUse → Bool
  | .respond _ => false
  | .transmit call => call.transport.channelId == channelId

/-! ## What a client does -/

def Item.payloadOn (channelId : UInt8) : Item → Option (List UInt8)
  | .response _ => none
  | .frame channel payload => if channel = channelId then some payload else none

structure ReceivedPacket where
  sequenceNumber : UInt16
  timestamp : UInt32
  payload : List UInt8
  deriving DecidableEq, Repr

def readPacket (data : List UInt8) : Access ReceivedPacket := do
  match ← RtpHeader.deserialize data with
  | none => throw .assertion
  | some (hdr, size) => return ⟨htons hdr.sequenceNumber, htonl hdr.timestamp, data.drop size⟩

def packetsOn (channelId : UInt8) (items : List Item) : Access (List ReceivedPacket) :=
  (items.filterMap (Item.payloadOn channelId)).mapM readPacket

/-! ## One packet -/

def StreamConfig.use (rtp : RtpTransport) (ts : RtpTimestamp) (packet : RtpPayload) : WriterUse :=
  .transmit ⟨config.transport, [rtp.headerBytes ts packet.marker, packet.header, packet.data],
    config.allocated⟩

def behindPacket (rtp : RtpTransport) (ts : RtpTimestamp) (packet : RtpPayload) (us : UInt64) :
    RtpTransport := rtp.counting ts (packet.header.length + packet.data.length) us

theorem length_headerBytes (rtp : RtpTransport) (ts : RtpTimestamp) (marker : Bool) :
    (rtp.headerBytes ts marker).length ≤ 28 := by
  have extension := extensionHeader_length_le rtp
  simp only [RtpTransport.headerBytes, List.length_append, List.length_cons, List.length_nil,
    length_be32]
  rw [show (be16 rtp.seqNum).length = 2 from rfl]
  omega

theorem flatten_bufs (front header data : List UInt8) :
    [front, header, data].flatten = front ++ (header ++ data) := by
  rw [List.flatten_cons, List.flatten_cons, List.flatten_cons, List.flatten_nil, List.append_nil]

theorem use_accepted (rtp : RtpTransport) (ts : RtpTimestamp) (packet : RtpPayload)
    (short : packet.bytes.length ≤ 1200) : ∃ call, config.use rtp ts packet = .transmit call ∧
      call.refused = false ∧ call.transport = config.transport ∧
      call.bufs.flatten = (rtp.packet ts packet.marker packet.bytes).bytes ∧
      call.bufs.flatten.length < 2 ^ 16 := by
  have header := length_headerBytes rtp ts packet.marker
  have flat := flatten_bufs (rtp.headerBytes ts packet.marker) packet.header packet.data
  have length : [rtp.headerBytes ts packet.marker, packet.header, packet.data].flatten.length ≤
      1228 := by
    rw [flat, List.length_append, ← RtpPayload.bytes]
    omega
  refine ⟨_, rfl, ?_, rfl, ?_, ?_⟩
  · rw [Transmit.refused, Transmit.total, IoVecSlice.len_eq, interleavedHeaderSize, tcpTxStackBuf,
      decide_eq_false (by dsimp only; omega)]
    rfl
  · rw [rtp.bytes_packet]
    exact flat
  · exact Nat.lt_of_le_of_lt length (by decide)

section

variable {w} {written : W → List UInt8} (never : w.NeverFails written)

include never

theorem tcpSend_eq (stream : RtpStream W) (ts : RtpTimestamp) (packet : RtpPayload)
    (short : packet.bytes.length ≤ 1200) :
    tcpSend w config ts packet.marker packet.header packet.data stream =
      .ok (⟨behindPacket stream.rtp ts packet (config.clock stream.sent),
        ((config.use stream.rtp ts packet).run w stream.self).2, stream.sent + 1⟩, 0) := by
  obtain ⟨call, use, accepted, _⟩ := use_accepted config stream.rtp ts packet short
  have ran : ((config.use stream.rtp ts packet).run w stream.self).1 = 0 := by
    rw [use, run_transmit, if_neg (by rw [accepted]; exact Bool.false_ne_true),
      never.write_ret, call.length_frame, if_pos rfl]
  have sent := stream.rtp.sendPacket_eq (fun bufs : IoVecSlice =>
      (((WriterUse.transmit ⟨config.transport, bufs, config.allocated⟩).run w stream.self).2,
        ((WriterUse.transmit ⟨config.transport, bufs, config.allocated⟩).run w stream.self).1))
    ts packet.marker packet.header packet.data (config.clock stream.sent)
    ((config.use stream.rtp ts packet).run w stream.self).2 0 (Prod.ext rfl ran)
  rw [tcpSend]
  dsimp only
  rw [sent]
  rfl

theorem tcpSend_willing : Willing 1200 (tcpSend w config) := by
  intro ts marker header data stream short
  exact ⟨_, 0, tcpSend_eq config never stream ts ⟨marker, header, data⟩
    (by rw [RtpPayload.bytes, List.length_append]; exact short), by decide⟩

end

/-! ## The packets of a stream -/

/-- The frames of these packets, sent one after the other from `first` on. -/
inductive Carries (config : StreamConfig) : RtpTransport → List (UInt32 × RtpPayload) →
    List WriterUse → RtpTransport → Prop where
  | nil (rtp : RtpTransport) : Carries config rtp [] [] rtp
  | cons {first last : RtpTransport} {ts : UInt32} {packet : RtpPayload} {us : UInt64}
      {packets : List (UInt32 × RtpPayload)} {uses : List WriterUse}
      (short : packet.bytes.length ≤ 1200)
      (later : Carries config (behindPacket first (.raw ts) packet us) packets uses last) :
      Carries config first ((ts, packet) :: packets)
        (config.use first (.raw ts) packet :: uses) last

theorem Carries.append {first middle last : RtpTransport}
    {front back : List (UInt32 × RtpPayload)} {used more : List WriterUse}
    (begun : Carries config first front used middle) (rest : Carries config middle back more last) :
    Carries config first (front ++ back) (used ++ more) last := by
  induction begun with
  | nil => exact rest
  | cons short _ ih => exact .cons short (ih rest)

theorem Carries.readable {first last : RtpTransport} {packets : List (UInt32 × RtpPayload)}
    {uses : List WriterUse} (carries : Carries config first packets uses last) :
    ∀ use ∈ uses, use.Readable ∧ use.on config.transport.channelId = true ∧
      use.isRespond = false := by
  induction carries with
  | nil => exact fun _ none => absurd none List.not_mem_nil
  | @cons first last ts packet us packets uses short later ih =>
      refine List.forall_mem_cons.mpr ⟨?_, ih⟩
      obtain ⟨call, use, _, transport, _, room⟩ := use_accepted config first (.raw ts) packet short
      rw [use]
      refine ⟨room, ?_, rfl⟩
      rw [WriterUse.on, transport]
      exact beq_self_eq_true _

theorem readPacket_sent (rtp : RtpTransport) (ts : UInt32) (marker : Bool) (payload : List UInt8) :
    readPacket (rtp.packet (.raw ts) marker payload).bytes = .ok ⟨rtp.seqNum, ts, payload⟩ := by
  have read := RtpPacket.deserialize_bytes _ (rtp.packet_wellFormed (.raw ts) marker payload)
  rw [readPacket, read, ok_bind]
  dsimp only [RtpPacket.header]
  rw [htons_htons, htonl_htonl, RtpPacket.drop_headerSize]
  rfl

/-- The numbers count up from the first one, modulo `2 ^ 16`. -/
def Numbered (first : UInt16) (received : List ReceivedPacket) : Prop :=
  received.map ReceivedPacket.sequenceNumber =
    (List.range received.length).map fun i => first + UInt16.ofNat i

theorem numbered_cons (first : UInt16) (ts : UInt32) (payload : List UInt8)
    {received : List ReceivedPacket} (later : Numbered (first + 1) received) :
    Numbered first (⟨first, ts, payload⟩ :: received) := by
  rw [Numbered, List.map_cons, later, List.length_cons, List.range_succ_eq_map, List.map_cons,
    List.map_map]
  have here : first = first + UInt16.ofNat 0 := (UInt16.add_zero first).symm
  refine List.cons_eq_cons.mpr ⟨here, List.map_congr_left fun i _ => ?_⟩
  rw [Function.comp_apply, Nat.succ_eq_add_one, UInt16.ofNat_add, UInt16.add_assoc,
    UInt16.add_comm (UInt16.ofNat i)]
  rfl

theorem Carries.received {first last : RtpTransport} {packets : List (UInt32 × RtpPayload)}
    {uses : List WriterUse} (carries : Carries config first packets uses last) :
    ∃ received, packetsOn config.transport.channelId (uses.filterMap WriterUse.item) =
        .ok received ∧ Numbered first.seqNum received ∧
      received.map (fun packet => (packet.timestamp, packet.payload)) =
        packets.map fun packet => (packet.1, packet.2.bytes) := by
  induction carries with
  | nil => exact ⟨[], rfl, rfl, rfl⟩
  | @cons first last ts packet us packets uses short later ih =>
      obtain ⟨received, read, numbered, same⟩ := ih
      obtain ⟨call, use, accepted, transport, flat, _⟩ :=
        use_accepted config first (.raw ts) packet short
      have item : (config.use first (.raw ts) packet).item =
          some (.frame config.transport.channelId
            (first.packet (.raw ts) packet.marker packet.bytes).bytes) := by
        rw [use, WriterUse.item, if_neg (by rw [accepted]; exact Bool.false_ne_true), transport, flat]
      have payload : Item.payloadOn config.transport.channelId (.frame config.transport.channelId
          (first.packet (.raw ts) packet.marker packet.bytes).bytes) =
            some (first.packet (.raw ts) packet.marker packet.bytes).bytes := if_pos rfl
      refine ⟨⟨first.seqNum, ts, packet.bytes⟩ :: received, ?_, numbered_cons _ _ _ numbered, ?_⟩
      · rw [packetsOn] at read ⊢
        rw [List.filterMap_cons_some item, List.filterMap_cons_some payload, List.mapM_cons,
          readPacket_sent, ok_bind, read]
        rfl
      · rw [List.map_cons, List.map_cons, same]

/-! ## The uses of the connection -/

theorem runUses_append (w : Writer W) (front back : List WriterUse) (self : W) :
    runUses w (front ++ back) self = runUses w back (runUses w front self) := List.foldl_append

/-- The frames of the packets among the other uses, both in their order. -/
structure Among (config : StreamConfig) (first last : RtpTransport)
    (packets : List (UInt32 × RtpPayload)) (others uses : List WriterUse) : Prop where
  carries : Carries config first packets
    (uses.filter (WriterUse.on config.transport.channelId)) last
  others : uses.filter (fun use => !use.on config.transport.channelId) = others

theorem Among.before {first middle last : RtpTransport} {packets more : List (UInt32 × RtpPayload)}
    {sent others uses : List WriterUse} (carries : Carries config first packets sent middle)
    (rest : Among config middle last more others uses) :
    Among config first last (packets ++ more) others (sent ++ uses) := by
  have mine : ∀ use ∈ sent, use.on config.transport.channelId = true :=
    fun use member => (carries.readable config use member).2.1
  constructor
  · rw [List.filter_append, List.filter_eq_self.mpr mine]
    exact carries.append config rest.carries
  · have none : sent.filter (fun use => !use.on config.transport.channelId) = [] := by
      rw [List.filter_eq_nil_iff]
      intro use member
      rw [mine use member]
      decide
    rw [List.filter_append, none, List.nil_append]
    exact rest.others

theorem Among.other {first last : RtpTransport} {packets : List (UInt32 × RtpPayload)}
    {others uses : List WriterUse} {use : WriterUse}
    (elsewhere : use.on config.transport.channelId = false)
    (rest : Among config first last packets others uses) :
    Among config first last packets (use :: others) (use :: uses) := by
  constructor
  · rw [List.filter_cons_of_neg (by rw [elsewhere]; exact Bool.false_ne_true)]
    exact rest.carries
  · rw [List.filter_cons_of_pos (by rw [elsewhere]; rfl), rest.others]

section

variable {w : Writer W} {written : W → List UInt8} (never : w.NeverFails written)

include never

theorem sendTimed_tcp (packets : List (UInt32 × RtpPayload))
    (short : ∀ packet ∈ packets, packet.2.bytes.length ≤ 1200) (stream : RtpStream W) :
    ∃ rtp sent uses, sendTimed (tcpSend w config) packets stream =
        .ok ⟨rtp, runUses w uses stream.self, sent⟩ ∧
      Carries config stream.rtp packets uses rtp := by
  induction packets generalizing stream with
  | nil => exact ⟨stream.rtp, stream.sent, [], rfl, .nil _⟩
  | cons packet packets ih =>
      obtain ⟨here, later⟩ := List.forall_mem_cons.mp short
      obtain ⟨ts, packet⟩ := packet
      obtain ⟨rtp, sent, uses, ran, carries⟩ := ih later
        ⟨behindPacket stream.rtp (.raw ts) packet (config.clock stream.sent),
          ((config.use stream.rtp (.raw ts) packet).run w stream.self).2, stream.sent + 1⟩
      refine ⟨rtp, sent, _, ?_, .cons here carries⟩
      rw [sendTimed, tcpSend_eq config never stream (.raw ts) packet here, ok_bind]
      exact ran

theorem sendPlan_tcp (events : List (Option WriterUse))
    (others : ∀ use ∈ events.filterMap id, use.on config.transport.channelId = false)
    (plan : PlayPlan)
    (short : ∀ packets ∈ plan, ∀ packet ∈ packets, packet.2.bytes.length ≤ 1200)
    (stream : RtpStream W) :
    ∃ rtp sent uses, sendPlan (tcpSend w config) (events.map (playEvent w)) plan stream =
        .ok ⟨rtp, runUses w uses stream.self, sent⟩ ∧
      Among config stream.rtp rtp (plan.take (events.countP Option.isNone)).flatten
        (events.filterMap id) uses := by
  induction events generalizing plan stream with
  | nil => exact ⟨stream.rtp, stream.sent, [], rfl, .nil _, rfl⟩
  | cons event events ih =>
      cases event with
      | some use =>
          obtain ⟨here, later⟩ := List.forall_mem_cons.mp others
          obtain ⟨rtp, sent, uses, ran, among⟩ := ih later plan short
            { stream with self := (use.run w stream.self).2 }
          exact ⟨rtp, sent, use :: uses, ran, among.other config here⟩
      | none =>
          have fired : (none :: events).countP Option.isNone = events.countP Option.isNone + 1 :=
            List.countP_cons_of_pos rfl
          cases plan with
          | nil =>
              obtain ⟨rtp, sent, uses, ran, among⟩ := ih others [] short stream
              refine ⟨rtp, sent, uses, ran, ?_⟩
              rw [List.take_nil] at among ⊢
              exact among
          | cons packets plan =>
              obtain ⟨here, later⟩ := List.forall_mem_cons.mp short
              obtain ⟨middle, count, used, first, carries⟩ := sendTimed_tcp config never packets
                here stream
              obtain ⟨rtp, sent, uses, ran, among⟩ := ih others plan later
                ⟨middle, runUses w used stream.self, count⟩
              refine ⟨rtp, sent, used ++ uses, ?_, ?_⟩
              · rw [List.map_cons, playEvent, sendPlan, first, ok_bind, runUses_append]
                exact ran
              · rw [fired, List.take_succ_cons, List.flatten_cons]
                exact among.before config carries

omit never in
theorem countP_playEvent (w : Writer W) (events : List (Option WriterUse)) :
    (events.map (playEvent w)).countP PlayEvent.isPeriod = events.countP Option.isNone := by
  rw [List.countP_map]
  refine List.countP_congr fun event _ => ?_
  cases event <;> exact Iff.rfl

end

/-! ## What the client gets -/

theorem packetsOn_filter (channelId : UInt8) (uses : List WriterUse) :
    packetsOn channelId (uses.filterMap WriterUse.item) =
      packetsOn channelId ((uses.filter (WriterUse.on channelId)).filterMap WriterUse.item) := by
  rw [packetsOn, packetsOn]
  congr 1
  induction uses with
  | nil => rfl
  | cons use uses ih =>
      cases use with
      | respond response =>
          rw [List.filter_cons_of_neg Bool.false_ne_true, List.filterMap_cons_some
            (show WriterUse.item (.respond response) = _ from rfl), List.filterMap_cons_none rfl]
          exact ih
      | transmit call =>
          cases refused : call.refused with
          | true =>
              have item : (WriterUse.transmit call).item = none := by
                rw [WriterUse.item, if_pos refused]
              rw [List.filterMap_cons_none item, ih, List.filter_cons]
              split
              · rw [List.filterMap_cons_none item]
              · rfl
          | false =>
              have item : (WriterUse.transmit call).item =
                  some (.frame call.transport.channelId call.bufs.flatten) := by
                rw [WriterUse.item, if_neg (by rw [refused]; exact Bool.false_ne_true)]
              rw [List.filterMap_cons_some item]
              by_cases same : call.transport.channelId = channelId
              · have payload : Item.payloadOn channelId
                    (.frame call.transport.channelId call.bufs.flatten) =
                      some call.bufs.flatten := if_pos same
                rw [List.filter_cons_of_pos (show WriterUse.on channelId (.transmit call) = true from
                  beq_iff_eq.mpr same), List.filterMap_cons_some item,
                  List.filterMap_cons_some payload, List.filterMap_cons_some payload, ih]
              · have payload : Item.payloadOn channelId
                    (.frame call.transport.channelId call.bufs.flatten) = none := if_neg same
                rw [List.filter_cons_of_neg (show ¬ WriterUse.on channelId (.transmit call) = true
                  from fun on => same (beq_iff_eq.mp on)), List.filterMap_cons_none payload]
                exact ih

/-- The client takes the connection apart and finds these timestamps and payloads on the channel,
in packets whose numbers count up from `first`. -/
def Found (channelId : UInt8) (first : UInt16) (past : Option UInt8) (bytes : List UInt8)
    (payloads : List (UInt32 × List UInt8)) : Prop :=
  ∃ items received, readAll (readItem past) () bytes.length bytes = .ok items ∧
    packetsOn channelId items = .ok received ∧ Numbered first received ∧
    received.map (fun packet => (packet.timestamp, packet.payload)) = payloads

theorem stamped_timed (units : List (UInt32 × NalUnit)) :
    (units.flatMap timedPackets).map (fun packet => (packet.1, packet.2.bytes)) =
      units.flatMap (stampedPackets 1200) := by
  rw [List.map_flatMap]
  refine congrArg (fun f => List.flatMap f units) (funext fun unit => ?_)
  rw [timedPackets, List.map_map]
  rfl

theorem Among.found {first last : RtpTransport} {packets : List (UInt32 × RtpPayload)}
    {others uses : List WriterUse} (among : Among config first last packets others uses)
    (readable : ∀ use ∈ others, use.Readable) (past : Option UInt8)
    (whole : NotCr (streamOf uses) ∨ ∀ use ∈ others, use.isRespond = false) :
    Found config.transport.channelId first.seqNum past (streamOf uses)
      (packets.map fun packet => (packet.1, packet.2.bytes)) := by
  have cases (use : WriterUse) (member : use ∈ uses) :
      use.Readable ∧ (use.isRespond = true → use ∈ others) := by
    cases on : use.on config.transport.channelId with
    | true =>
        obtain ⟨reads, _, frame⟩ := among.carries.readable config use
          (List.mem_filter.mpr ⟨member, on⟩)
        exact ⟨reads, fun respond => absurd respond (by rw [frame]; exact Bool.false_ne_true)⟩
    | false =>
        have other : use ∈ others := by
          rw [← among.others]
          exact List.mem_filter.mpr ⟨member, by rw [on]; rfl⟩
        exact ⟨readable use other, fun _ => other⟩
  have quiet (none : ∀ use ∈ others, use.isRespond = false) (use : WriterUse)
      (member : use ∈ uses) : use.isRespond = false := by
    rw [← Bool.not_eq_true]
    intro respond
    rw [none use ((cases use member).2 respond)] at respond
    exact Bool.false_ne_true respond
  have read := (readAll_uses past uses (fun use member => (cases use member).1)
    (streamOf uses).length (Nat.le_refl _)).mpr (whole.imp_right quiet)
  obtain ⟨received, packets, numbered, same⟩ := among.carries.received config
  exact ⟨_, received, read, by rw [packetsOn_filter, packets], numbered, same⟩

/-- A player with a plan of short packets, on a connection that is used in between: what is found
on its channel are the packets of its periods. -/
theorem plan_found {γ : Type} {w : Writer W} {written : W → List UInt8}
    (never : w.NeverFails written) {plan : PlayPlan}
    (short : ∀ packets ∈ plan, ∀ packet ∈ packets, packet.2.bytes.length ≤ 1200)
    (rtp : RtpTransport) (self : W) (fresh : written self = []) (past : Option UInt8)
    (events : List (Option WriterUse))
    (others : ∀ use ∈ events.filterMap id,
      use.Readable ∧ use.on config.transport.channelId = false)
    {ctx ctx' : Playing γ (RtpStream W)} (starts : ctx.transport = ⟨rtp, self, 0⟩)
    (played : Played (tcpSend w config) (events.map (playEvent w)) plan ctx ctx')
    (whole : NotCr (written ctx'.transport.self) ∨
      ∀ use ∈ events.filterMap id, use.isRespond = false) :
    Found config.transport.channelId rtp.seqNum past (written ctx'.transport.self)
      (((plan.take (events.countP Option.isNone)).flatten).map fun packet =>
        (packet.1, packet.2.bytes)) := by
  obtain ⟨last, sent, uses, sending, among⟩ := sendPlan_tcp config never events
    (fun use member => (others use member).2) plan short ⟨rtp, self, 0⟩
  have final := played.sent
  rw [starts] at final
  have same := Except.ok.inj (final.symm.trans sending)
  have bytes : written ctx'.transport.self = streamOf uses := by
    rw [same, uses_written never, fresh, List.nil_append]
  rw [bytes] at whole ⊢
  exact among.found config (fun use member => (others use member).1) past whole

theorem timedPackets_short {unit : UInt32 × NalUnit} (h264 : unit.2.header.codec = .H264) :
    ∀ packet ∈ timedPackets unit, packet.2.bytes.length ≤ 1200 := by
  intro packet member
  obtain ⟨ts, header, payload⟩ := unit
  obtain ⟨payload', inside, rfl⟩ := List.mem_map.mp member
  cases header with
  | H265 h => contradiction
  | H264 h =>
      have room := default_room (.H264 h)
      have limit := naluPackets_eq .default ⟨.H264 h, payload⟩ room
      have bounded := length_naluPacket_le .default ⟨.H264 h, payload⟩ room
      rw [limit] at bounded
      exact bounded payload' inside

/-- However the periods of the player fall between the other uses of the connection, the client
gets one picture for each of them, from the first sequence parameter set of the file on: the units
as they stand in the file, without delimiters. -/
theorem video_received {w : Writer W} {written : W → List UInt8} (never : w.NeverFails written)
    (config : StreamConfig) (rtp : RtpTransport) (self : W) (fresh : written self = [])
    (past : Option UInt8) (heap : NalEntry) {code : List UInt8}
    (known : code = startCode3b ∨ code = startCode4b) {units : List (List UInt8)}
    (present : units ≠ []) (clean : Clean code units)
    (valid : ∀ unit ∈ units, unit ≠ [] ∧ (unitOf unit).header.Valid) (fps : Int) (rate : fps ≠ 0)
    (events : List (Option WriterUse))
    (others : ∀ use ∈ events.filterMap id,
      use.Readable ∧ use.on config.transport.channelId = false) (streamsPlaying : Int) :
    buildNalIndex heap (joined code units) = .ok (some (mediaOf code units fps).table) ∧
      ∃ ctx, playEvents (sendVideoPacketCb (tcpSend w config) (mediaOf code units fps))
          (events.map (playEvent w))
          (playVideo (mediaOf code units fps) ⟨rtp, self, 0⟩ streamsPlaying) = .ok ctx ∧
        ctx.pending = decide (events.countP Option.isNone < (filePlan units fps).length) ∧
        ctx.streamsPlaying = (if ctx.pending then streamsPlaying + 1 else streamsPlaying) ∧
        (NotCr (written ctx.transport.self) ∨
            (∀ use ∈ events.filterMap id, use.isRespond = false) →
          ∃ payloads, Found config.transport.channelId rtp.seqNum past
              (written ctx.transport.self) payloads ∧
            readUnits .H264 payloads =
              .ok ((filePlan units fps).take (events.countP Option.isNone)).flatten) := by
  have some_ : ∀ unit ∈ units, unit ≠ [] := fun unit member => (valid unit member).1
  have well := filePlan_valid fps fun unit member => (valid unit member).2
  refine ⟨mediaOf_table heap known present clean some_ fps, ?_⟩
  obtain ⟨ctx, ran, played⟩ := playEvents_file (tcpSend_willing config never) code present some_
    fps rate (events.map (playEvent w)) ⟨rtp, self, 0⟩ streamsPlaying
  have short : ∀ packets ∈ schedulePlan (filePlan units fps), ∀ packet ∈ packets,
      packet.2.bytes.length ≤ 1200 := by
    intro packets inside packet member
    obtain ⟨list, here, rfl⟩ := List.mem_map.mp inside
    obtain ⟨unit, among, packet'⟩ := List.mem_flatMap.mp member
    exact timedPackets_short (well unit (List.mem_flatten.mpr ⟨list, here, among⟩)).2.1 packet
      packet'
  refine ⟨ctx, ran, ?_, played.streamsPlaying_pending rfl, fun whole => ⟨_, plan_found config never
    short rtp self fresh past events others rfl played whole, ?_⟩⟩
  · rw [played.pending, countP_playEvent, schedulePlan, List.length_map]
  · rw [schedulePlan_take, stamped_timed]
    refine readUnits_packets .H264 1200 _ fun unit member => ?_
    obtain ⟨list, inside, here⟩ := List.mem_flatten.mp member
    exact well unit (List.mem_flatten.mpr ⟨list, List.mem_of_mem_take inside, here⟩)

def sampleUnits : List (List UInt8) := [[0x09, 0xF0], [0x67, 0x42], [0x65, 0x88, 0x84], [0x41, 0x9A]]

def sampleUses : List (Option WriterUse) := [some (.respond okResponse), none, none]

theorem sampleUses_others : ∀ use ∈ sampleUses.filterMap id,
    use.Readable ∧ use.on 0 = false := by
  intro use member
  rw [show sampleUses.filterMap id = [.respond okResponse] from rfl,
    List.mem_singleton] at member
  rw [member]
  exact ⟨okResponse_writable, rfl⟩

def sampleConfig : StreamConfig := ⟨⟨0⟩, false, fun _ => 0⟩

theorem sampleUnits_notCr : (playEvents (sendVideoPacketCb (tcpSend listWriter sampleConfig)
    (mediaOf startCode4b sampleUnits 30)) (sampleUses.map (playEvent listWriter))
      (playVideo (mediaOf startCode4b sampleUnits 30)
        ⟨RtpTransport.new (0, 65535) 0 96 90000, [], 0⟩ 0)).toOption.all
          (fun ctx => decide (NotCr ctx.transport.self)) = true := by decide +kernel

theorem sampleUnits_received :
    buildNalIndex ⟨0, 0, 0⟩ (joined startCode4b sampleUnits) =
        .ok (some (mediaOf startCode4b sampleUnits 30).table) ∧
      ∃ ctx, playEvents (sendVideoPacketCb (tcpSend listWriter sampleConfig)
            (mediaOf startCode4b sampleUnits 30)) (sampleUses.map (playEvent listWriter))
          (playVideo (mediaOf startCode4b sampleUnits 30)
            ⟨RtpTransport.new (0, 65535) 0 96 90000, [], 0⟩ 0) = .ok ctx ∧
        ctx.pending = decide (sampleUses.countP Option.isNone <
          (filePlan sampleUnits 30).length) ∧
        ctx.streamsPlaying = (if ctx.pending then 0 + 1 else 0) ∧
        ∃ payloads, Found sampleConfig.transport.channelId
            (RtpTransport.new (0, 65535) 0 96 90000).seqNum none ctx.transport.self payloads ∧
          readUnits .H264 payloads =
            .ok ((filePlan sampleUnits 30).take (sampleUses.countP Option.isNone)).flatten := by
  have present : sampleUnits ≠ [] := List.cons_ne_nil _ _
  have clean : Clean startCode4b sampleUnits := (by decide : ∀ unit ∈ sampleUnits,
    ¬ startCode4b <:+: unit)
  have valid : ∀ unit ∈ sampleUnits, unit ≠ [] ∧ (unitOf unit).header.Valid := by
    simp only [sampleUnits, List.forall_mem_cons]
    exact ⟨⟨by decide, rfl, by decide, by decide, by decide⟩,
      ⟨by decide, rfl, by decide, by decide, by decide⟩,
      ⟨by decide, rfl, by decide, by decide, by decide⟩,
      ⟨by decide, rfl, by decide, by decide, by decide⟩, fun _ none => absurd none List.not_mem_nil⟩
  obtain ⟨table, ctx, ran, pending, playing, received⟩ := video_received listWriter_neverFails
    sampleConfig (RtpTransport.new (0, 65535) 0 96 90000) [] rfl none ⟨0, 0, 0⟩ (Or.inr rfl)
    present clean valid 30 (by decide) sampleUses sampleUses_others 0
  have last := sampleUnits_notCr
  rw [ran] at last
  exact ⟨table, ctx, ran, pending, playing, received (Or.inl (of_decide_eq_true last))⟩

/-- The same for an audio file: the payloads are the file up to the periods so far, every timestamp
the place of the samples in it. -/
theorem audio_received {w : Writer W} {written : W → List UInt8} (never : w.NeverFails written)
    (config : StreamConfig) (rtp : RtpTransport) (self : W) (fresh : written self = [])
    (past : Option UInt8) (audio : List UInt8) (events : List (Option WriterUse))
    (others : ∀ use ∈ events.filterMap id,
      use.Readable ∧ use.on config.transport.channelId = false) (streamsPlaying : Int) :
    ∃ ctx, playEvents (sendAudioPacketCb (tcpSend w config) audio) (events.map (playEvent w))
        (playAudio ⟨rtp, self, 0⟩ streamsPlaying) = .ok ctx ∧
      ctx.pending = decide (events.countP Option.isNone ≤ audioCount audio) ∧
      ctx.streamsPlaying = (if ctx.pending then streamsPlaying + 1 else streamsPlaying) ∧
      (NotCr (written ctx.transport.self) ∨
          (∀ use ∈ events.filterMap id, use.isRespond = false) →
        ∃ payloads, Found config.transport.channelId rtp.seqNum past
            (written ctx.transport.self) payloads ∧
          (payloads.map Prod.snd).flatten =
            audio.take (events.countP Option.isNone * audioSamplesPerPacket) ∧
          payloads.map Prod.fst = (List.range payloads.length).map fun i =>
            UInt32.ofNat (i * audioSamplesPerPacket)) := by
  have some_ : audioPlan audio 0 ≠ [] := List.append_ne_nil_of_right_ne_nil _ (List.cons_ne_nil _ _)
  obtain ⟨ctx, ran, played⟩ := playEvents_played
    (sendAudioPacketCb_follows (by decide) (tcpSend_willing config never) audio)
    (events.map (playEvent w)) _ some_ (playAudio ⟨rtp, self, 0⟩ streamsPlaying)
    ⟨Nat.zero_le _, rfl⟩ rfl
  have packets := audioPlan_take audio
  have short : ∀ packets ∈ audioPlan audio 0, ∀ packet ∈ packets,
      packet.2.bytes.length ≤ 1200 := by
    intro list inside packet member
    have within : packet ∈ ((audioPlan audio 0).take (audioPlan audio 0).length).flatten := by
      rw [List.take_length]
      exact List.mem_flatten.mpr ⟨list, inside, member⟩
    rw [packets] at within
    obtain ⟨index, _, rfl⟩ := List.mem_map.mp within
    have window := Fragmentation.length_window_le audioSamplesPerPacket audio index
    exact Nat.le_trans window (by decide)
  refine ⟨ctx, ran, ?_, played.streamsPlaying_pending rfl, fun whole => ⟨_, plan_found config never
    short rtp self fresh past events others rfl played whole, ?_, ?_⟩⟩
  · rw [played.pending, countP_playEvent, audioPlan, List.length_append, List.length_map,
      List.length_range']
    exact decide_eq_decide.mpr Nat.lt_succ_iff
  · rw [List.map_map]
    exact flatten_audioPackets audio _
  · rw [packets, List.map_map, List.map_map, List.length_map, List.length_map, List.length_range]
    rfl

def sampleAudio : List UInt8 := List.replicate 200 0xD5

theorem sampleAudio_notCr : (playEvents (sendAudioPacketCb (tcpSend listWriter sampleConfig)
    sampleAudio) (sampleUses.map (playEvent listWriter))
      (playAudio ⟨RtpTransport.new (0, 65535) 0 0 8000, [], 0⟩ 0)).toOption.all
        (fun ctx => decide (NotCr ctx.transport.self)) = true := by decide +kernel

theorem sampleAudio_received :
    ∃ ctx, playEvents (sendAudioPacketCb (tcpSend listWriter sampleConfig) sampleAudio)
        (sampleUses.map (playEvent listWriter))
        (playAudio ⟨RtpTransport.new (0, 65535) 0 0 8000, [], 0⟩ 0) = .ok ctx ∧
      ctx.pending = decide (sampleUses.countP Option.isNone ≤ audioCount sampleAudio) ∧
      ctx.streamsPlaying = (if ctx.pending then 0 + 1 else 0) ∧
      ∃ payloads, Found sampleConfig.transport.channelId
          (RtpTransport.new (0, 65535) 0 0 8000).seqNum none ctx.transport.self payloads ∧
        (payloads.map Prod.snd).flatten =
          sampleAudio.take (sampleUses.countP Option.isNone * audioSamplesPerPacket) ∧
        payloads.map Prod.fst = (List.range payloads.length).map fun i =>
          UInt32.ofNat (i * audioSamplesPerPacket) := by
  obtain ⟨ctx, ran, pending, playing, received⟩ := audio_received listWriter_neverFails sampleConfig
    (RtpTransport.new (0, 65535) 0 0 8000) [] rfl none sampleAudio sampleUses sampleUses_others 0
  have last := sampleAudio_notCr
  rw [ran] at last
  exact ⟨ctx, ran, pending, playing, received (Or.inl (of_decide_eq_true last))⟩

end Compy.Connection
