import Compy.Connection.Requests

/-!
# The life of a connection

Requests come in and timers go off, in any order, until the connection is closed.  A request that
names a stream which is not ready for it aborts the server; without such requests every access finds
what it needs, and what is left at the end can be read off the requests.
-/

set_option autoImplicit false

namespace Compy.Connection

open CheckedBytes Interaction Ownership Compy.Rtsp

variable {W : Type}

/-- A request, with the writer where the connection has come to, or a timer that goes off. -/
inductive SessionEvent (W : Type) where
  | request (req : Request) (conn : W)
  | timer (k : Nat)

def sessionStep (w : Writer W) (env : Environment) (self : Server) : SessionEvent W → Access Server
  | .request req conn => do
      let (result, _) ← dispatch w (clientController env) req (.ok self) conn
      result
  | .timer k =>
      match self.pending[k]? with
      | none => .ok self
      | some entry => self.fire env entry.2

def runSession (w : Writer W) (env : Environment) : List (SessionEvent W) → Server → Access Server
  | [], self => .ok self
  | event :: events, self => do
      let self ← sessionStep w env self event
      runSession w env events self

def SessionEvent.Orderly (self : Server) : SessionEvent W → Prop
  | .request req _ => Compy.Connection.Orderly self req
  | .timer _ => True

/-- Every request is orderly where it comes in. -/
def OrderlySession (w : Writer W) (env : Environment) : List (SessionEvent W) → Server → Prop
  | [], _ => True
  | event :: events, self => event.Orderly self ∧
      ∀ next, sessionStep w env self event = .ok next → OrderlySession w env events next

/-! ## One step -/

theorem contextContract_context (w : Writer W) : contextContract.Meets (contextCalls w)
    fun progress exchange => exchange.context = progress.context := by
  intro command progress exchange same allowed
  cases command with
  | header key text =>
      obtain ⟨_, present, short, room⟩ := allowed
      have formatted := vheader_ok progress.context key text present short room
      refine ⟨(), { exchange with context := progress.context.header key text room }, ?_, ?_⟩
      · rw [contextCalls, same, formatted]
        rfl
      · rw [contextContract]
        dsimp only
        rw [dif_pos room]
  | body body =>
      refine ⟨(), _, rfl, ?_⟩
      rw [same]
      rfl
  | respond code reason => exact ⟨_, _, rfl, same⟩
  | getRet => exact ⟨_, _, rfl, same⟩

section

variable {w : Writer W} {env : Environment} {self : Server}

theorem request_ensures {req : Request} {post : Access Server → Prop}
    (ensures : ((clientController env).handle req (.ok self)).Ensures contextContract
      (.new req.cseq) fun result _ => post result) (conn : W) :
    ∃ result, sessionStep w env self (.request req conn) = result ∧ post result := by
  have start : (Exchange.new conn req.cseq).context = (Progress.new req.cseq).context := rfl
  obtain ⟨result, exchange, progress, ran, _, holds⟩ :=
    (contextContract_context w).run ensures start
  refine ⟨result, ?_, holds⟩
  rw [sessionStep, dispatch, ran]
  rfl

/-- Requests that are orderly run through, and so do timers if the files can be played. -/
theorem sessionStep_returns {lost : List Nat} {faults : Prop} (sound : Sound self [] lost)
    {event : SessionEvent W} (orderly : event.Orderly self) (playable : env.Playable ∨ faults) :
    Returns faults (fun next => ∃ lost, Sound next [] lost) (sessionStep w env self event) := by
  cases event with
  | timer k =>
      rw [sessionStep]
      cases found : self.pending[k]? with
      | none => exact ⟨lost, sound⟩
      | some entry =>
          exact (sound.fire_returns env (List.mem_of_getElem? found) playable).mono
            fun next kept => ⟨lost, kept⟩
  | request req conn =>
      obtain ⟨result, ran, next, lost', same, kept⟩ := request_ensures ((ensures_handle env sound
        orderly).mono fun result progress answered => answered.1) conn
      rw [ran, same]
      exact ⟨lost', kept⟩

theorem runSession_returns (events : List (SessionEvent W)) {lost : List Nat} {faults : Prop}
    (sound : Sound self [] lost) (orderly : OrderlySession w env events self)
    (playable : env.Playable ∨ faults) :
    Returns faults (fun next => ∃ lost, Sound next [] lost) (runSession w env events self) := by
  induction events generalizing self lost with
  | nil => exact ⟨lost, sound⟩
  | cons event events ih =>
      obtain ⟨here, later⟩ := orderly
      have step := @sessionStep_returns _ w env self lost faults sound event here playable
      rw [runSession]
      cases stepped : sessionStep w env self event with
      | error fault =>
          rw [stepped] at step
          exact step
      | ok middle =>
          obtain ⟨lost', kept⟩ := step.holds stepped
          exact ih kept (later middle stepped)

theorem runSession_sound {events : List (SessionEvent W)}
    (orderly : OrderlySession w env events .accept) {server : Server}
    (ran : runSession w env events .accept = .ok server) : ∃ lost, Sound server [] lost :=
  (@runSession_returns _ w env .accept events _ True accept_sound orderly (Or.inr trivial)).holds ran

/-- A player that has lost its client comes to a fault, and sends no more over TCP. -/
theorem orphan_faults (gone : self.client.addr ∉ self.arena.live)
    (bev : self.client.bev ∉ self.arena.live) {k ev : Nat} {ctx : CtxPtr}
    (found : self.pending[k]? = some (ev, .player ctx)) :
    (∃ n fault, runSession w env (List.replicate n (.timer k)) self = .error fault) ∧
      ∀ n next, runSession w env (List.replicate n (.timer k)) self = .ok next →
        Adrift ctx self next := by
  have step (before : Server) (adrift : Adrift ctx self before) :
      Returns True (fun next => Adrift ctx self next ∧
        remaining env next ctx < remaining env before ctx) (sessionStep w env before (.timer k)) := by
    have again : before.pending[k]? = some (ev, .player ctx) := by rw [adrift.pending, found]
    have period := @playerPeriod_adrift env before ctx (by rwa [adrift.arena, adrift.client])
      (by rwa [adrift.arena, adrift.client])
    rw [sessionStep, again]
    exact period.mono fun next ⟨same, fewer⟩ => ⟨adrift.trans same, fewer⟩
  have run (n : Nat) (before : Server) (adrift : Adrift ctx self before) :
      Returns True (fun next => Adrift ctx self next ∧
        remaining env next ctx + n ≤ remaining env before ctx)
          (runSession w env (List.replicate n (.timer k)) before) := by
    induction n generalizing before with
    | zero => exact ⟨adrift, Nat.le_refl _⟩
    | succ n ih =>
        rw [List.replicate_succ, runSession]
        refine (step before adrift).bind fun middle ⟨here, fewer⟩ => ?_
        exact (ih middle here).mono fun next ⟨later, rest⟩ => ⟨later, by omega⟩
  have start : Adrift ctx self self := ⟨rfl, rfl, rfl, fun _ => rfl⟩
  constructor
  · refine ⟨remaining env self ctx + 1, ?_⟩
    cases ran : runSession w env (List.replicate (remaining env self ctx + 1) (.timer k)) self with
    | error fault => exact ⟨fault, rfl⟩
    | ok next =>
        have left := ((run _ self start).holds ran).2
        omega
  · exact fun n next ran => ((run n self start).holds ran).1

end

/-! ## Orderly sessions -/

def sampleMedia : Compy.Nal.Media :=
  Compy.Nal.mediaOf Compy.Nal.startCode3b [[0x67, 0x42], [0x65, 0x88]] 25

def sampleEnvironment : Environment where
  urandom _ := 7
  dgramSocket _ := none
  transmit _ := 0
  bevHeld := true
  ipv6 := false
  fps := 25
  video := sampleMedia.video
  table := sampleMedia.table
  audio := [0]
  crypto := none

theorem sampleEnvironment_playable : sampleEnvironment.Playable where
  rate := by decide
  units := Compy.Nal.mediaOf_indexed _ (by decide) 25
  samples := List.cons_ne_nil _ _

def sampleRequest (method uri : String) (header : Header) : Request where
  startLine := { method := charSlice method, uri := charSlice uri, version := ⟨1, 0⟩ }
  headerMap := ⟨[header], oneHeader_bounded⟩
  body := []
  cseq := 1

def setupVideo (transport : String) : Request :=
  sampleRequest "SETUP" "rtsp://camera/video" ⟨headerTransport, charSlice transport⟩

def playSession (sessionId : String) : Request :=
  sampleRequest "PLAY" "rtsp://camera/" ⟨headerSession, charSlice sessionId⟩

def sampleSession : List (SessionEvent (List UInt8)) :=
  [.request (setupVideo "RTP/AVP/TCP;unicast;interleaved=0-1") [], .request (playSession "7") [],
    .timer 0]

theorem sampleSession_orderly : OrderlySession listWriter sampleEnvironment sampleSession .accept := by
  refine ⟨⟨fun play => absurd play (by decide), fun teardown => absurd teardown (by decide)⟩,
    fun next stepped => ⟨⟨fun _ sessionId scanned i named => ?_, fun teardown =>
      absurd teardown (by decide)⟩, fun _ _ => ⟨trivial, fun _ _ => trivial⟩⟩⟩
  have number : sessionId = 7 := by
    have seven : scanHeaderU64 (playSession "7").headerMap headerSession = some 7 := rfl
    rw [seven] at scanned
    cases scanned
    rfl
  have ready : (sessionStep listWriter sampleEnvironment .accept (.request
      (setupVideo "RTP/AVP/TCP;unicast;interleaved=0-1") [])).toOption.all (fun next =>
        allStreams.all fun i => (next.stream i).sessionId != 7 || (next.stream i).transport.isSome) =
          true := by decide +kernel
  rw [stepped] at ready
  have each := List.all_eq_true.mp ready i (mem_allStreams i)
  rw [named, number] at each
  exact each

section

variable {w : Writer W} {env : Environment} {self : Server}

theorem ensures_play_stranded {req : Request} {cseq : UInt32} {sessionId : UInt64}
    (scanned : scanHeaderU64 req.headerMap headerSession = some sessionId) {i : StreamId}
    (named : (self.stream i).sessionId = sessionId) (none_ : (self.stream i).transport = none) :
    (self.play env req).Ensures contextContract (.new cseq) fun result _ =>
      ∀ next, result = .ok next → Stranded next := by
  have tidy := tidy_new cseq
  rw [Server.play, scanned]
  dsimp only
  cases ran : allStreams.foldlM (Server.playTurn env sessionId) (self, false) with
  | error fault => exact fun _ same => by cases same
  | ok state =>
      obtain ⟨next, played⟩ := state
      have stranded := plays_stranded env sessionId allStreams self
        (Or.inr ⟨i, mem_allStreams i, named, none_⟩) false ran
      have post (other : Server) (same : Except.ok next = (.ok other : Access Server)) :
          Stranded other := by
        cases same
        exact stranded
      cases played with
      | false => exact tidy.ensures_last (by decide) 454 invalidSession_plain fun _ _ => post
      | true =>
          refine (Program.ensures_bind _ _ _ _).mpr ?_
          refine tidy.ensures_header formatted_range (by decide) fun context tidy => ?_
          exact tidy.ensures_last (by decide) 200 ok_plain fun _ _ => post

theorem ensures_teardown_fault {req : Request} {cseq : UInt32} {sessionId : UInt64}
    (scanned : scanHeaderU64 req.headerMap headerSession = some sessionId) {i : StreamId}
    (named : (self.stream i).sessionId = sessionId) (none_ : (self.stream i).ev = none) :
    (self.teardown req).Ensures contextContract (.new cseq) fun result _ =>
      ∃ fault, result = .error fault := by
  obtain ⟨fault, ran⟩ := stops_fault sessionId allStreams self
    ⟨i, mem_allStreams i, named, none_⟩ false
  rw [Server.teardown, scanned]
  dsimp only
  rw [ran]
  exact ⟨fault, rfl⟩

theorem disorderly_cases {req : Request} (not_ : ¬ Orderly self req) : ∃ sessionId,
    scanHeaderU64 req.headerMap headerSession = some sessionId ∧ ∃ i,
      (self.stream i).sessionId = sessionId ∧
        (req.startLine.method = charSlice "PLAY" ∧ (self.stream i).transport = none ∨
          req.startLine.method = charSlice "TEARDOWN" ∧ (self.stream i).ev = none) := by
  by_contra none_
  refine not_ ⟨fun play sessionId scanned i named => ?_, fun teardown sessionId scanned i named => ?_⟩
  · by_contra without
    exact none_ ⟨sessionId, scanned, i, named,
      Or.inl ⟨play, Option.not_isSome_iff_eq_none.mp without⟩⟩
  · by_contra without
    exact none_ ⟨sessionId, scanned, i, named,
      Or.inr ⟨teardown, Option.not_isSome_iff_eq_none.mp without⟩⟩

theorem ensures_disorderly {req : Request} (not_ : ¬ Orderly self req) :
    ((clientController env).handle req (.ok self)).Ensures contextContract (.new req.cseq)
      fun result _ => ∀ next, result = .ok next → Stranded next := by
  obtain ⟨sessionId, scanned, i, named, cause⟩ := disorderly_cases not_
  have handler : ((clientController env).handler req.startLine.method (.ok self) req).Ensures
      contextContract (.new req.cseq) fun result _ => ∀ next, result = .ok next → Stranded next := by
    rcases cause with ⟨play, none_⟩ | ⟨teardown, none_⟩
    · rw [play]
      exact ensures_play_stranded scanned named none_
    · rw [teardown]
      refine (ensures_teardown_fault scanned named none_).mono fun result _ aborted next same => ?_
      obtain ⟨fault, error⟩ := aborted
      rw [error] at same
      cases same
  refine (Program.ensures_bind _ _ _ _).mpr ?_
  refine (Program.ensures_bind _ _ _ _).mpr ?_
  exact handler.mono fun result progress holds => ⟨trivial, fun _ => holds⟩

theorem Stranded.fault (stranded : Stranded self) (samples : env.audio ≠ []) : ∃ k fault,
    sessionStep w env self (.timer k) = .error fault := by
  obtain ⟨addr, ev, member, start⟩ := stranded
  obtain ⟨k, found⟩ := List.mem_iff_getElem?.mp member
  refine ⟨k, ?_⟩
  rw [sessionStep, found]
  dsimp only
  rw [Server.fire, Server.playerPeriod]
  cases self.touch (CtxPtr.audio addr ev none).tail with
  | error fault => exact ⟨fault, rfl⟩
  | ok done =>
      have inside : 0 * Compy.Rtp.audioSamplesPerPacket < env.audio.length := by
        rw [Nat.zero_mul]
        exact List.length_pos_of_ne_nil samples
      refine ⟨.assertion, ?_⟩
      rw [ok_bind, start, Compy.Rtp.sendAudioPacketCb]
      dsimp only
      rw [if_neg (Nat.not_le.mpr inside), Compy.Rtp.readBytes_samples _ _ inside]
      rfl

end

end Compy.Connection
