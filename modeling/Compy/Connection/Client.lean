import Compy.Library.Ownership
import Compy.Connection.Dispatch
import Compy.DigestAuth.Digest
import Compy.Nal.Player
import Compy.Rtp.AudioPlayer
import Compy.Rtsp.Sdp
import Compy.Rtsp.TransportHeader
import Compy.Srtp.CryptoAttr

/-!
# The controller of the example server

`Client` of `server.c` with what it allocates, and the timers that it leaves with libevent.  A
pointer is the address of an object with the fields that never change behind its creation.  What
the transports do with a packet is the subject of other modules; here it counts which objects it
goes through.
-/

set_option autoImplicit false

namespace Compy.Connection

open CheckedBytes Interaction Ownership Compy.Rtsp Compy.Srtp Compy.DigestAuth
open Compy.Nal (Media NalTable VideoPlace)
open Compy.Rtp (TimedSend)

/-! ## What the client holds -/

/-- `AUDIO_STREAM_ID`, `VIDEO_STREAM_ID` and `BACKCHANNEL_STREAM_ID`. -/
inductive StreamId where
  | audio
  | video
  | backchannel
  deriving DecidableEq

def allStreams : List StreamId := [.audio, .video, .backchannel]

@[simp] theorem mem_allStreams (i : StreamId) : i ∈ allStreams := by
  cases i <;> simp [allStreams]

/-- A `Compy_Transport` in the order in which it is freed: an SRTP transport is behind the one that
it wraps.  One over TCP writes to the bufferevent of the connection. -/
structure TransportPtr where
  cells : List Nat
  interleaved : Bool
  deriving DecidableEq

structure RtpPtr where
  addr : Nat
  transport : TransportPtr
  deriving DecidableEq

structure RtcpPtr where
  addr : Nat
  rtp : RtpPtr
  transport : TransportPtr

/-- `AudioCtx` and `VideoCtx`; the audio player takes any pointer for its transport. -/
inductive CtxPtr where
  | audio (addr ev : Nat) (transport : Option RtpPtr)
  | video (addr ev nal : Nat) (transport : RtpPtr)

inductive Timer where
  | player (ctx : CtxPtr)
  | senderReport (rtcp : RtcpPtr)

structure BackchannelPtr where
  addr : Nat
  receiver : Nat

structure ClientStream where
  sessionId : UInt64
  transport : Option RtpPtr
  rtcp : Option RtcpPtr
  ev : Option Nat
  rtcpEv : Option Nat
  ctx : Option CtxPtr

structure Client where
  addr : Nat
  bev : Nat
  streams : StreamId → ClientStream
  streamsPlaying : Int
  backchannelSupported : Bool
  backchannel : Option BackchannelPtr

/-- What a request has brought about, as far as objects go. -/
inductive Deed where
  | setUp (stream : StreamId)
  | played (stream : StreamId)
  | stray
  deriving DecidableEq

/-- The client and the context of its read callback, with the arena that they are allocated from,
the timers that are pending, the places of the players in their files and the sockets that are
open.  `draws`, `calls` and `transmits` count what has been asked of the system; `log` is history. -/
structure Server where
  arena : Arena
  pending : List (Nat × Timer)
  audioAt : Nat → Nat
  videoAt : Nat → VideoPlace
  sockets : Nat
  ctx : Nat
  client : Client
  draws : Nat
  calls : Nat
  transmits : Nat
  log : List Deed

/-- What the system answers, and what the server has been started with: the ports of the sockets,
where there is one to be had, and the crypto attribute if the media are encrypted.  `bevHeld` is
whether libevent holds a bufferevent until its callback is over. -/
structure Environment where
  urandom : Nat → UInt64
  dgramSocket : Nat → Option UInt16
  transmit : Nat → Int
  bevHeld : Bool
  ipv6 : Bool
  fps : Int32
  video : List UInt8
  table : NalTable
  audio : List UInt8
  crypto : Option (CStr 127)

def Environment.media (self : Environment) : Media := ⟨self.video, self.table, self.fps.toInt⟩

def RtpPtr.cells (self : RtpPtr) : List Nat := self.transport.cells ++ [self.addr]

def RtcpPtr.cells (self : RtcpPtr) : List Nat := self.transport.cells ++ [self.addr]

namespace CtxPtr

def ev : CtxPtr → Nat
  | .audio _ ev _ => ev
  | .video _ ev _ _ => ev

def rtp : CtxPtr → Option RtpPtr
  | .audio _ _ transport => transport
  | .video _ _ _ transport => some transport

def tail : CtxPtr → List Nat
  | .audio addr _ _ => [addr]
  | .video addr _ nal _ => [nal, addr]

end CtxPtr

namespace Server

def alloc (self : Server) : Nat × Server :=
  (self.arena.alloc.1, { self with arena := self.arena.alloc.2 })

def freeAll (self : Server) (addrs : List Nat) : Access Server := do
  let arena ← self.arena.freeAll addrs
  return { self with arena := arena }

def touch (self : Server) (addrs : List Nat) : Access Unit := self.arena.touch addrs

def eventAdd (self : Server) (ev : Nat) (timer : Timer) : Server :=
  { self with pending := (ev, timer) :: self.pending }

def eventDel (self : Server) (ev : Nat) : Access Server := do
  self.touch [ev]
  return { self with pending := self.pending.filter fun entry => entry.1 != ev }

def eventFree (self : Server) (ev : Nat) : Access Server := do
  let self ← self.eventDel ev
  self.freeAll [ev]

def setStream (self : Server) (i : StreamId) (stream : ClientStream) : Server :=
  { self with client := { self.client with
      streams := fun other => if other = i then stream else self.client.streams other } }

def logged (self : Server) (deed : Deed) : Server := { self with log := self.log ++ [deed] }

def stream (self : Server) (i : StreamId) : ClientStream := self.client.streams i

/-- `listener_cb`; `calloc` clears the client. -/
def accept : Server :=
  let (bev, arena) := Arena.new.alloc
  let (addr, arena) := arena.alloc
  let (ctx, arena) := arena.alloc
  { arena := arena
    pending := []
    audioAt := fun _ => 0
    videoAt := fun _ => ⟨0, 0⟩
    sockets := 0
    ctx := ctx
    client :=
      { addr := addr
        bev := bev
        streams := fun _ => ⟨0, none, none, none, none, none⟩
        streamsPlaying := 0
        backchannelSupported := false
        backchannel := none }
    draws := 0
    calls := 0
    transmits := 0
    log := [] }

end Server

/-! ## Headers -/

def headerPublic : List UInt8 := charSlice "Public"

def headerContentType : List UInt8 := charSlice "Content-Type"

def headerSession : List UInt8 := charSlice "Session"

def headerTransport : List UInt8 := charSlice "Transport"

def headerRange : List UInt8 := charSlice "Range"

def requireHasTag (headers : HeaderMap) (tag : List UInt8) : Bool :=
  headers.find headerRequire == some tag

/-- `compy_scanf_header` for one 64-bit number. -/
def scanHeaderU64 (headers : HeaderMap) (key : List UInt8) : Option UInt64 := do
  let value ← headers.find key
  let (negative, magnitude) ← scanInteger value
  return strtoul negative magnitude

def respondMalformedSession : Handling Int :=
  Handling.respond 400 (charSlice "Malformed `Session'")

def respondInvalidSession : Handling Int :=
  Handling.respond 454 (charSlice "Invalid Session ID")

/-! ## OPTIONS and DESCRIBE -/

namespace Server

variable (env : Environment)

def options (self : Server) (_req : Request) : Handling (Access Server) := do
  Handling.header headerPublic (charSlice "DESCRIBE, SETUP, PLAY, PAUSE, TEARDOWN, GET_PARAMETER")
  let _ ← Handling.respondOk
  return .ok self

def sdpSession (ipv6 : Bool) : List SdpLine :=
  let ipVer := charSlice (if ipv6 then "IP6" else "IP4")
  let ipAny := charSlice (if ipv6 then "::" else "0.0.0.0")
  [⟨'v'.toUInt8, charSlice "0"⟩,
    ⟨'o'.toUInt8, charSlice "Compy 3855320066 3855320129 IN " ++ ipVer ++ charSlice " " ++ ipAny⟩,
    ⟨'s'.toUInt8, charSlice "Compy example"⟩,
    ⟨'c'.toUInt8, charSlice "IN " ++ ipVer ++ charSlice " " ++ ipAny⟩,
    ⟨'t'.toUInt8, charSlice "0 0"⟩]

def sdpVideo (fps : Int32) : List SdpLine :=
  [⟨'m'.toUInt8, charSlice "video 0 RTP/AVP 96"⟩,
    ⟨'a'.toUInt8, charSlice "control:video"⟩,
    ⟨'a'.toUInt8, charSlice "recvonly"⟩,
    ⟨'a'.toUInt8, charSlice "rtpmap:96 H264/90000"⟩,
    ⟨'a'.toUInt8, charSlice "fmtp:96 packetization-mode=1"⟩,
    ⟨'a'.toUInt8, charSlice "framerate:" ++ decimalInt fps⟩]

def sdpAudio : List SdpLine :=
  [⟨'m'.toUInt8, charSlice "audio 0 RTP/AVP 0"⟩,
    ⟨'a'.toUInt8, charSlice "control:audio"⟩,
    ⟨'a'.toUInt8, charSlice "recvonly"⟩]

def sdpBackchannel : List SdpLine :=
  [⟨'m'.toUInt8, charSlice "audio 0 RTP/AVP 0"⟩,
    ⟨'a'.toUInt8, charSlice "control:audioback"⟩,
    ⟨'a'.toUInt8, charSlice "rtpmap:0 PCMU/8000"⟩,
    ⟨'a'.toUInt8, charSlice "sendonly"⟩]

def sdpCrypto (crypto : CStr 127) : SdpLine := ⟨'a'.toUInt8, charSlice "crypto:" ++ crypto.text⟩

def sdpLines (backchannelSupported : Bool) : List SdpLine :=
  sdpSession env.ipv6 ++ sdpVideo env.fps ++ sdpAudio ++
    (if backchannelSupported then sdpBackchannel else []) ++ (env.crypto.map sdpCrypto).toList

def sdpBufSize : Nat := 2048

/-- The string writer is not told the size of its buffer. -/
def describe (self : Server) (req : Request) : Handling (Access Server) :=
  let supported := requireHasTag req.headerMap (charSlice "www.onvif.org/ver20/backchannel")
  let self := { self with client := { self.client with backchannelSupported := supported } }
  let (ret, sdpBuf) := sdpDescribe stringWriter (sdpLines env supported) []
  if sdpBufSize ≤ sdpBuf.length then return .error .outOfBounds
  else if ret ≤ 0 then return .error .assertion
  else do
    Handling.header headerContentType (charSlice "application/sdp")
    Handling.body (cStr sdpBuf)
    let _ ← Handling.respondOk
    return .ok self

/-! ## SETUP -/

def setupTcp (self : Server) (config : TransportConfig) :
    Handling (Server × Option (TransportPtr × TransportPtr)) :=
  match config.interleaved with
  | some interleaved => do
      let (t, self) := self.alloc
      let (rtcpT, self) := self.alloc
      Handling.header headerTransport (charSlice "RTP/AVP/TCP;unicast;interleaved=" ++
        decimal interleaved.rtpChannel.toNat ++ charSlice "-" ++
        decimal interleaved.rtcpChannel.toNat)
      return (self, some (⟨[t], true⟩, ⟨[rtcpT], true⟩))
  | none => do
      let _ ← Handling.respond 400 (charSlice "`interleaved' not found")
      return (self, none)

def dgramSocket (self : Server) : Option UInt16 × Server :=
  match env.dgramSocket self.calls with
  | none => (none, { self with calls := self.calls + 1 })
  | some port => (some port, { self with calls := self.calls + 1, sockets := self.sockets + 1 })

/-- `compy_transport_udp`, wrapped if the media are encrypted. -/
def wrapped (self : Server) (inner : Nat) : TransportPtr × Server :=
  match env.crypto with
  | none => (⟨[inner], false⟩, self)
  | some _ =>
      let (outer, self) := self.alloc
      (⟨[inner, outer], false⟩, self)

def setupUdp (self : Server) (config : TransportConfig) :
    Handling (Server × Option (TransportPtr × TransportPtr)) :=
  match config.clientPort with
  | some clientPort =>
      match self.dgramSocket env with
      | (none, self) => return (self, none)
      | (some serverRtpPort, self) =>
          match self.dgramSocket env with
          | (none, self) => return ({ self with sockets := self.sockets - 1 }, none)
          | (some serverRtcpPort, self) => do
              let (t, self) := self.alloc
              let (rtcpT, self) := self.alloc
              let (t, self) := self.wrapped env t
              let (rtcpT, self) := self.wrapped env rtcpT
              Handling.header headerTransport (charSlice "RTP/AVP/UDP;unicast;client_port=" ++
                decimal clientPort.rtpPort.toNat ++ charSlice "-" ++
                decimal clientPort.rtcpPort.toNat ++ charSlice ";server_port=" ++
                decimal serverRtpPort.toNat ++ charSlice "-" ++ decimal serverRtcpPort.toNat)
              return (self, some (t, rtcpT))
  | none => do
      let _ ← Handling.respond 400 (charSlice "`client_port' not found")
      return (self, none)

def setupLower (self : Server) (config : TransportConfig) :
    Handling (Server × Option (TransportPtr × TransportPtr)) :=
  match config.lower with
  | .TCP => self.setupTcp config
  | .UDP => self.setupUdp env config

/-- The parser leaves the configuration alone where it fails. -/
def transportConfig (value : List UInt8) : Option TransportConfig :=
  match compyParseTransport ⟨.UDP, false, false, none, none, none⟩ value with
  | (config, ret) => if ret = -1 then none else some config

def setupTransport (self : Server) (req : Request) :
    Handling (Server × Option (TransportPtr × TransportPtr)) :=
  match req.headerMap.find headerTransport with
  | none => do
      let _ ← Handling.respond 400 (charSlice "`Transport' not present")
      return (self, none)
  | some value =>
      match transportConfig value with
      | none => do
          let _ ← Handling.respond 400 (charSlice "Malformed `Transport'")
          return (self, none)
      | some config => do
          let (self, transports) ← self.setupLower env config
          if transports.isNone then
            let _ ← Handling.respondInternalError
          return (self, transports)

def streamOfUri (uri : List UInt8) : StreamId :=
  if (charSlice "/audioback").isSuffixOf uri then .backchannel
  else if (charSlice "/audio").isSuffixOf uri then .audio
  else .video

/-- The number of the session, and what is left of the random ones; the number of a request may be
malformed. -/
def sessionOf (self : Server) (req : Request) : Option UInt64 × Server :=
  if req.headerMap.containsKey headerSession then (scanHeaderU64 req.headerMap headerSession, self)
  else (some (env.urandom self.draws), { self with draws := self.draws + 1 })

def withReceiver (self : Server) (sessionId : UInt64) : Server :=
  let self := self.setStream .backchannel
    { self.stream .backchannel with sessionId := sessionId, transport := none }
  let (addr, self) := self.alloc
  let (receiver, self) := self.alloc
  { self with client := { self.client with backchannel := some ⟨addr, receiver⟩ } }

/-- The backchannel has its receiver in the place of transports. -/
def setupBackchannel (self : Server) (sessionId : UInt64) (t rtcpT : TransportPtr) :
    Access Server := do
  let self ← (self.withReceiver sessionId).freeAll rtcpT.cells
  self.freeAll t.cells

def setupStream (self : Server) (i : StreamId) (sessionId : UInt64) (t rtcpT : TransportPtr) :
    Server :=
  let (rtpAddr, self) := self.alloc
  let (rtcpAddr, self) := self.alloc
  let rtp : RtpPtr := ⟨rtpAddr, t⟩
  self.setStream i
    { self.stream i with
      sessionId := sessionId
      transport := some rtp
      rtcp := some ⟨rtcpAddr, rtp, rtcpT⟩ }

def setupAt (self : Server) (i : StreamId) (sessionId : UInt64) (t rtcpT : TransportPtr) :
    Access Server :=
  match i with
  | .backchannel => self.setupBackchannel sessionId t rtcpT
  | i => .ok (self.setupStream i sessionId t rtcpT)

def setup (self : Server) (req : Request) : Handling (Access Server) := do
  let (self, transports) ← self.setupTransport env req
  match transports with
  | none => return .ok self
  | some (t, rtcpT) =>
      let i := streamOfUri req.startLine.uri
      match self.sessionOf env req with
      | (none, self) =>
          let _ ← respondMalformedSession
          return .ok (self.logged .stray)
      | (some sessionId, self) =>
          match self.setupAt i sessionId t rtcpT with
          | .error fault => return .error fault
          | .ok self =>
              Handling.header headerSession (decimal sessionId.toNat)
              let _ ← Handling.respondOk
              return .ok (self.logged (.setUp i))

/-! ## PLAY and TEARDOWN -/

def started (self : Server) (i : StreamId) (ctx : CtxPtr) : Server :=
  let self := self.eventAdd ctx.ev (.player ctx)
  let self := self.setStream i { self.stream i with ev := some ctx.ev, ctx := some ctx }
  { self with client := { self.client with streamsPlaying := self.client.streamsPlaying + 1 } }

def playAudio (self : Server) (i : StreamId) : Server :=
  let (addr, self) := self.alloc
  let (ev, self) := self.alloc
  let self := { self with audioAt := Function.update self.audioAt addr 0 }
  self.started i (.audio addr ev (self.stream i).transport)

/-- A NAL transport needs something to be on top of. -/
def playVideo (self : Server) (i : StreamId) : Access Server :=
  match (self.stream i).transport with
  | none => .error .assertion
  | some transport =>
      let (addr, self) := self.alloc
      let (nal, self) := self.alloc
      let (ev, self) := self.alloc
      let self := { self with
        videoAt := Function.update self.videoAt addr ⟨0, env.table.startIdx⟩ }
      .ok (self.started i (.video addr ev nal transport))

/-- The timer for the sender reports is made once. -/
def startReports (self : Server) (i : StreamId) : Server :=
  match (self.stream i).rtcp, (self.stream i).rtcpEv with
  | some rtcp, none =>
      let (ev, self) := self.alloc
      let self := self.setStream i { self.stream i with rtcpEv := some ev }
      self.eventAdd ev (.senderReport rtcp)
  | _, _ => self

def playStream (self : Server) (i : StreamId) : Access Server := do
  let self ← if i = .audio then .ok (self.playAudio i) else self.playVideo env i
  return (self.startReports i).logged (.played i)

/-- One turn of the loop in `Client_play`, with `played`. -/
def playTurn (sessionId : UInt64) (state : Server × Bool) (i : StreamId) : Access (Server × Bool) :=
  if (state.1.stream i).sessionId = sessionId then do
    let self ← state.1.playStream env i
    return (self, true)
  else .ok state

def play (self : Server) (req : Request) : Handling (Access Server) :=
  match scanHeaderU64 req.headerMap headerSession with
  | none => do
      let _ ← respondMalformedSession
      return .ok self
  | some sessionId =>
      match allStreams.foldlM (playTurn env sessionId) (self, false) with
      | .error fault => return .error fault
      | .ok (self, false) => do
          let _ ← respondInvalidSession
          return .ok self
      | .ok (self, true) => do
          Handling.header headerRange (charSlice "npt=now-")
          let _ ← Handling.respondOk
          return .ok self

/-- `event_del` of no event is an access through a null pointer. -/
def stopStream (self : Server) (i : StreamId) : Access Server :=
  match (self.stream i).ev with
  | none => .error .outOfBounds
  | some ev => self.eventDel ev

def teardownTurn (sessionId : UInt64) (state : Server × Bool) (i : StreamId) :
    Access (Server × Bool) :=
  if (state.1.stream i).sessionId = sessionId then do
    let self ← state.1.stopStream i
    return (self, true)
  else .ok state

def teardown (self : Server) (req : Request) : Handling (Access Server) :=
  match scanHeaderU64 req.headerMap headerSession with
  | none => do
      let _ ← respondMalformedSession
      return .ok self
  | some sessionId =>
      match allStreams.foldlM (teardownTurn sessionId) (self, false) with
      | .error fault => return .error fault
      | .ok (self, false) => do
          let _ ← respondInvalidSession
          return .ok self
      | .ok (self, true) => do
          let _ ← Handling.respondOk
          return .ok self

/-! ## The other methods -/

def pauseMethod (self : Server) (_req : Request) : Handling (Access Server) := do
  let _ ← Handling.respondOk
  return .ok self

def getParameter (self : Server) (_req : Request) : Handling (Access Server) := do
  let _ ← Handling.respondOk
  return .ok self

def unknown (self : Server) (_req : Request) : Handling (Access Server) := do
  let _ ← Handling.respond 501 (charSlice "Not Implemented")
  return .ok self

/-- Behind a failed assertion or a wild access there is nothing more. -/
def method (handler : Server → Request → Handling (Access Server)) :
    Access Server → Request → Handling (Access Server)
  | .error fault, _ => return .error fault
  | .ok self, req => handler self req

end Server

/-- The controller without authentication, which goes in front of it. -/
def clientController (env : Environment) : Controller (Access Server) where
  options := Server.method Server.options
  describe := Server.method (Server.describe env)
  setup := Server.method (Server.setup env)
  play := Server.method (Server.play env)
  pauseMethod := Server.method Server.pauseMethod
  teardown := Server.method Server.teardown
  getParameter := Server.method Server.getParameter
  unknown := Server.method Server.unknown
  before self _ := return (.Continue, self)
  after _ self _ := return self

/-! ## Timers and the end of the connection -/

namespace Server

variable (env : Environment)

/-- What is used when something is sent. -/
def reach (self : Server) (transport : TransportPtr) : List Nat :=
  if transport.interleaved then [self.client.bev] else []

/-- `Compy_RtpTransport_send_packet` on a transport that has to be there. -/
def sendThrough (transport : Option RtpPtr) : TimedSend Server := fun _ _ _ _ self =>
  match transport with
  | none => .error .assertion
  | some rtp => do
      self.touch (rtp.cells ++ self.reach rtp.transport)
      return ({ self with transmits := self.transmits + 1 }, env.transmit self.transmits)

/-- A player at the end of its file; its client counts how many there are. -/
def finish (self : Server) (ev : Nat) (streamsPlaying : Int) : Access Server := do
  let self ← self.eventDel ev
  self.touch [self.client.addr]
  return { self with client := { self.client with streamsPlaying := streamsPlaying } }

def playerPeriod (self : Server) (ctx : CtxPtr) : Access Server := do
  self.touch ctx.tail
  match ctx with
  | .audio addr ev transport =>
      let player ← Compy.Rtp.sendAudioPacketCb (sendThrough env transport) env.audio
        ⟨self.audioAt addr, self, true, self.client.streamsPlaying⟩
      let self := { player.transport with
        audioAt := Function.update player.transport.audioAt addr player.place }
      if player.pending then return self else self.finish ev player.streamsPlaying
  | .video addr ev _ transport =>
      let player ← Compy.Nal.sendVideoPacketCb (sendThrough env (some transport)) env.media
        ⟨self.videoAt addr, self, true, self.client.streamsPlaying⟩
      let self := { player.transport with
        videoAt := Function.update player.transport.videoAt addr player.place }
      if player.pending then return self else self.finish ev player.streamsPlaying

/-- A report or a BYE packet. -/
def sendRtcp (self : Server) (rtcp : RtcpPtr) : Access Unit :=
  self.touch (rtcp.rtp.addr :: (rtcp.cells ++ self.reach rtcp.transport))

def fire (self : Server) (timer : Timer) : Access Server :=
  match timer with
  | .player ctx => self.playerPeriod env ctx
  | .senderReport rtcp => do
      self.sendRtcp rtcp
      return self

/-- `AudioCtx_drop` and `VideoCtx_drop`. -/
def dropCtx (self : Server) (ctx : CtxPtr) : Access Server := do
  let self ← self.eventFree ctx.ev
  match ctx.rtp with
  | none => .error .assertion
  | some rtp => self.freeAll (rtp.cells ++ ctx.tail)

/-- A BYE packet, and the RTCP of the stream with its timer. -/
def dropRtcp (self : Server) (rtcp : RtcpPtr) (rtcpEv : Option Nat) : Access Server := do
  self.sendRtcp rtcp
  let self ← rtcpEv.elim (.ok self) self.eventFree
  self.freeAll rtcp.cells

def dropStream (self : Server) (i : StreamId) : Access Server := do
  let stream := self.stream i
  let self ← stream.ev.elim (.ok self) self.eventDel
  let self ← stream.rtcp.elim (.ok self) fun rtcp => self.dropRtcp rtcp stream.rtcpEv
  stream.ctx.elim (.ok self) self.dropCtx

/-- `Client_drop` -/
def drop (self : Server) : Access Server := do
  self.touch [self.client.addr]
  let self ← allStreams.foldlM dropStream self
  let self ← self.client.backchannel.elim (.ok self) fun backchannel =>
    self.freeAll [backchannel.receiver, backchannel.addr]
  self.freeAll [self.client.addr]

/-- `compy_libevent_ctx_free` -/
def ctxFree (self : Server) : Access Server := do
  self.touch [self.ctx]
  let self ← self.drop
  self.freeAll [self.ctx]

/-- `on_event_cb`: the bufferevent is freed first. -/
def onEventCb (self : Server) : Access Server := do
  let self ← if env.bevHeld then .ok self else self.freeAll [self.client.bev]
  let self ← self.ctxFree
  if env.bevHeld then self.freeAll [self.client.bev] else return self

end Server

end Compy.Connection
