import Compy.Connection.Closing

/-!
# What the client is answered

The methods of the example server keep what is said of its objects, and each of them responds once.
Only a SETUP that names a lower transport without the channels or the ports for it is answered
twice.
-/

set_option autoImplicit false

namespace Compy.Connection

open CheckedBytes Interaction Ownership Compy.Rtsp Compy.Srtp Compy.DigestAuth

/-! ## Texts -/

structure Made (among : UInt8 → Prop) (max : Nat) (text : List UInt8) : Prop where
  all : ∀ c ∈ text, among c
  size : text.length ≤ max

theorem made_of_all {among : UInt8 → Prop} [DecidablePred among] {max : Nat} {text : List UInt8}
    (all : text.all (fun c => decide (among c)) = true) (size : text.length ≤ max) :
    Made among max text :=
  ⟨fun c member => of_decide_eq_true (List.all_eq_true.mp all c member), size⟩

theorem Made.append {among : UInt8 → Prop} {m n : Nat} {front back : List UInt8}
    (first : Made among m front) (second : Made among n back) :
    Made among (m + n) (front ++ back) where
  all c member := (List.mem_append.mp member).elim (first.all c) (second.all c)
  size := by
    have one := first.size
    have two := second.size
    rw [List.length_append]
    omega

def HeaderChar (c : UInt8) : Prop := c ≠ 0 ∧ c ≠ ' '.toUInt8 ∧ c ≠ '\r'.toUInt8

instance : DecidablePred HeaderChar := fun _ => inferInstanceAs (Decidable (_ ∧ _ ∧ _))

theorem made_decimal {n e : Nat} (positive : 0 < e) (below : n < 10 ^ e) :
    Made HeaderChar e (decimal n) where
  all c member := by
    have digit := decimal_digits n c member
    exact ⟨matched_ne digit rfl, matched_ne digit rfl, matched_ne digit rfl⟩
  size := decimal_length positive below

theorem made_decimal_uint8 (n : UInt8) : Made HeaderChar 3 (decimal n.toNat) :=
  made_decimal (by decide) (Nat.lt_trans n.toNat_lt (by decide))

theorem made_decimal_uint16 (n : UInt16) : Made HeaderChar 5 (decimal n.toNat) :=
  made_decimal (by decide) (Nat.lt_trans n.toNat_lt (by decide))

theorem made_decimal_uint64 (n : UInt64) : Made HeaderChar 20 (decimal n.toNat) :=
  made_decimal (by decide) (Nat.lt_trans n.toNat_lt (by decide))

/-- A name that the serialiser has no line of its own for. -/
structure OwnName (key : List UInt8) : Prop where
  valid : key ≠ [] ∧ key.all headerNameCharMatcher = true
  other : key ≠ headerCSeq ∧ key ≠ headerContentLength

theorem formatted_made {key text : List UInt8} {max : Nat} (name : OwnName key)
    (made : Made HeaderChar max text) (small : max < 2 ^ 31 - 1) (present : text ≠ []) :
    Formatted key text where
  writable := ⟨name.valid.1, List.all_eq_true.mp name.valid.2,
    plain_word text fun c member => (made.all c member).2⟩
  other := name.other
  noNul inside := (made.all 0 inside).1 rfl
  present := List.length_pos_of_ne_nil present
  short := Nat.lt_of_le_of_lt made.size small

theorem formatted_public : Formatted headerPublic
    (charSlice "DESCRIBE, SETUP, PLAY, PAUSE, TEARDOWN, GET_PARAMETER") where
  writable := ⟨List.cons_ne_nil _ _, List.all_eq_true.mp rfl, by decide +kernel, by decide +kernel⟩
  other := ⟨by decide, by decide⟩
  noNul := by decide +kernel
  present := by decide +kernel
  short := by decide +kernel

theorem formatted_contentType : Formatted headerContentType (charSlice "application/sdp") := by
  have made : Made HeaderChar 15 (charSlice "application/sdp") := made_of_all (by decide) (by decide)
  exact formatted_made ⟨⟨by decide, by decide⟩, by decide, by decide⟩ made (by decide)
    (List.cons_ne_nil _ _)

theorem formatted_range : Formatted headerRange (charSlice "npt=now-") := by
  have made : Made HeaderChar 8 (charSlice "npt=now-") := made_of_all (by decide) (by decide)
  exact formatted_made ⟨⟨by decide, by decide⟩, by decide, by decide⟩ made (by decide)
    (List.cons_ne_nil _ _)

theorem formatted_session (sessionId : UInt64) :
    Formatted headerSession (decimal sessionId.toNat) :=
  formatted_made ⟨⟨by decide, by decide⟩, by decide, by decide⟩ (made_decimal_uint64 sessionId)
    (by decide) (decimal_ne_nil _)

theorem transport_ownName : OwnName headerTransport :=
  ⟨⟨by decide, by decide⟩, by decide, by decide⟩

theorem formatted_tcp (rtpChannel rtcpChannel : UInt8) : Formatted headerTransport
    (charSlice "RTP/AVP/TCP;unicast;interleaved=" ++ decimal rtpChannel.toNat ++ charSlice "-" ++
      decimal rtcpChannel.toNat) := by
  have front : Made HeaderChar 32 (charSlice "RTP/AVP/TCP;unicast;interleaved=") :=
    made_of_all (by decide) (by decide)
  have dash : Made HeaderChar 1 (charSlice "-") := made_of_all (by decide) (by decide)
  exact formatted_made transport_ownName
    (((front.append (made_decimal_uint8 rtpChannel)).append dash).append
      (made_decimal_uint8 rtcpChannel)) (by decide)
    (List.append_ne_nil_of_right_ne_nil _ (decimal_ne_nil _))

theorem formatted_udp (rtpPort rtcpPort serverRtpPort serverRtcpPort : UInt16) :
    Formatted headerTransport
      (charSlice "RTP/AVP/UDP;unicast;client_port=" ++ decimal rtpPort.toNat ++ charSlice "-" ++
        decimal rtcpPort.toNat ++ charSlice ";server_port=" ++ decimal serverRtpPort.toNat ++
          charSlice "-" ++ decimal serverRtcpPort.toNat) := by
  have front : Made HeaderChar 32 (charSlice "RTP/AVP/UDP;unicast;client_port=") :=
    made_of_all (by decide) (by decide)
  have dash : Made HeaderChar 1 (charSlice "-") := made_of_all (by decide) (by decide)
  have middle : Made HeaderChar 13 (charSlice ";server_port=") := made_of_all (by decide) (by decide)
  have client := ((front.append (made_decimal_uint16 rtpPort)).append dash).append
    (made_decimal_uint16 rtcpPort)
  exact formatted_made transport_ownName
    ((((client.append middle).append (made_decimal_uint16 serverRtpPort)).append dash).append
      (made_decimal_uint16 serverRtcpPort)) (by decide)
    (List.append_ne_nil_of_right_ne_nil _ (decimal_ne_nil _))

/-! ## The description -/

abbrev CText (max : Nat) (text : List UInt8) : Prop := Made (· ≠ 0) max text

theorem sdpLine_made {max : Nat} {line : SdpLine} (ty : line.ty ≠ 0) (value : CText max line.value) :
    CText (max + 4) line.bytes := by
  have first : CText 1 [line.ty] := ⟨fun c member => by
    rw [List.mem_singleton.mp member]
    exact ty, Nat.le_refl 1⟩
  have equals : CText 1 (charSlice "=") := made_of_all (by decide) (by decide)
  have last : CText 2 crlf := made_of_all (by decide) (by decide)
  have whole := ((first.append equals).append value).append last
  exact ⟨whole.all, Nat.le_trans whole.size (by omega)⟩

theorem decimalInt_made (n : Int32) : CText 11 (decimalInt n) := by
  have below : n.toInt.natAbs < 10 ^ 10 := by
    have low := n.le_toInt
    have high := n.toInt_lt
    omega
  have digits : CText 10 (decimal n.toInt.natAbs) := by
    have made := made_decimal (by decide) below
    exact ⟨fun c member => (made.all c member).1, made.size⟩
  rw [decimalInt]
  split
  · have sign : CText 1 ['-'.toUInt8] := made_of_all (by decide) (by decide)
    exact sign.append digits
  · exact ⟨digits.all, Nat.le_trans digits.size (by decide)⟩

abbrev LinesMade (max : Nat) (lines : List SdpLine) : Prop :=
  CText max (lines.flatMap SdpLine.bytes)

theorem LinesMade.append {m n : Nat} {front back : List SdpLine} (first : LinesMade m front)
    (second : LinesMade n back) : LinesMade (m + n) (front ++ back) := by
  rw [LinesMade, List.flatMap_append]
  exact Made.append first second

theorem linesMade_singleton {max : Nat} {line : SdpLine} (made : CText max line.bytes) :
    LinesMade max [line] := by
  rw [LinesMade, List.flatMap_singleton]
  exact made

theorem sdpSession_made (ipv6 : Bool) : LinesMade 150 (Server.sdpSession ipv6) := by
  cases ipv6 <;> exact made_of_all (by decide +kernel) (by decide +kernel)

theorem sdpVideo_made (fps : Int32) : LinesMade 165 (Server.sdpVideo fps) := by
  have fixed : LinesMade 130 ((Server.sdpVideo 0).take 5) :=
    made_of_all (by decide +kernel) (by decide +kernel)
  have front : CText 10 (charSlice "framerate:") := made_of_all (by decide) (by decide)
  have framerate := @sdpLine_made _ ⟨'a'.toUInt8, charSlice "framerate:" ++ decimalInt fps⟩
    (show 'a'.toUInt8 ≠ 0 by decide) (front.append (decimalInt_made fps))
  have whole := fixed.append (linesMade_singleton framerate)
  exact ⟨whole.all, Nat.le_trans whole.size (by decide)⟩

theorem sdpLines_made (env : Environment) (supported : Bool) :
    LinesMade 700 (Server.sdpLines env supported) := by
  have audio : LinesMade 60 Server.sdpAudio := made_of_all (by decide +kernel) (by decide +kernel)
  have none_ : LinesMade 0 [] := ⟨fun c member => absurd member List.not_mem_nil, Nat.le_refl 0⟩
  have backchannel : LinesMade 100 (if supported then Server.sdpBackchannel else []) := by
    cases supported with
    | true => exact made_of_all (by decide +kernel) (by decide +kernel)
    | false => exact ⟨none_.all, Nat.zero_le 100⟩
  have crypto : LinesMade 140 (env.crypto.map Server.sdpCrypto).toList := by
    cases env.crypto with
    | none => exact ⟨none_.all, Nat.zero_le 140⟩
    | some crypto =>
        have front : CText 7 (charSlice "crypto:") := made_of_all (by decide) (by decide)
        have value : CText 127 crypto.text := ⟨crypto.noNul, crypto.fits⟩
        have line := @sdpLine_made _ (Server.sdpCrypto crypto)
          (show 'a'.toUInt8 ≠ 0 by decide) (front.append value)
        have whole := linesMade_singleton line
        exact ⟨whole.all, Nat.le_trans whole.size (by decide)⟩
  have whole := ((((sdpSession_made env.ipv6).append (sdpVideo_made env.fps)).append audio).append
    backchannel).append crypto
  exact ⟨whole.all, Nat.le_trans whole.size (by decide)⟩

theorem sdpLines_notCr (lines : List SdpLine) : NotCr (lines.flatMap SdpLine.bytes) := by
  induction lines with
  | nil => decide
  | cons line lines ih =>
      rw [List.flatMap_cons]
      exact notCr_append (getLast?_of_suffix rfl (List.suffix_append _ crlf)) ih

theorem sdpLines_whole (env : Environment) (supported : Bool) :
    0 < ((Server.sdpLines env supported).flatMap SdpLine.bytes).length ∧
      ((Server.sdpLines env supported).flatMap SdpLine.bytes).length < Server.sdpBufSize ∧
      cStr ((Server.sdpLines env supported).flatMap SdpLine.bytes) =
        (Server.sdpLines env supported).flatMap SdpLine.bytes := by
  have made := sdpLines_made env supported
  exact ⟨Nat.zero_lt_succ _, Nat.lt_of_le_of_lt made.size (by decide),
    cStr_of_present _ made.all⟩

/-! ## One response to a request -/

def Fine (result : Access Server) : Prop := ∃ next lost, result = .ok next ∧ Sound next [] lost

theorem Tidy.ensures_code {count : Nat} {context : Context} (tidy : Tidy count context)
    {sent : List Response} (few : count + 2 ≤ headerMapCapacity) (code : UInt16)
    {reason : List UInt8} (plain : PlainText reason) {post : Int → Progress → Prop}
    (next : ∀ ret response, response.startLine.code = code →
      post ret ⟨context, sent ++ [response]⟩) :
    (Handling.respond code reason).Ensures contextContract ⟨context, sent⟩ post :=
  ⟨tidy.respond few code plain, fun ret => next ret _ rfl⟩

def codes (progress : Progress) : List UInt16 := progress.sent.map fun response =>
  response.startLine.code

theorem Tidy.ensures_last {α : Type} {count : Nat} {context : Context} (tidy : Tidy count context)
    (few : count + 2 ≤ headerMapCapacity) (code : UInt16) {reason : List UInt8}
    (plain : PlainText reason) {result : α} {post : α → Progress → Prop}
    (next : ∀ progress, codes progress = [code] → post result progress) :
    (do let _ ← Handling.respond code reason
        return result : Handling α).Ensures contextContract ⟨context, []⟩ post := by
  rw [Program.ensures_bind]
  exact tidy.ensures_code few code plain fun ret response same =>
    next _ (congrArg (fun code => [code]) same)

/-- The server goes on, and there is one response. -/
def AnsweredOnce (result : Access Server) (progress : Progress) : Prop :=
  Fine result ∧ (codes progress).length = 1

theorem answeredOnce {self : Server} {lost : List Nat} (sound : Sound self [] lost) {code : UInt16}
    {progress : Progress} (same : codes progress = [code]) : AnsweredOnce (.ok self) progress := by
  refine ⟨⟨self, lost, rfl, sound⟩, ?_⟩
  rw [same]
  rfl

section

variable (env : Environment) {self : Server} {lost : List Nat} {cseq : UInt32}

theorem ensures_options (sound : Sound self [] lost) (req : Request) :
    (self.options req).Ensures contextContract (.new cseq) AnsweredOnce := by
  rw [Server.options, Program.ensures_bind]
  refine (tidy_new cseq).ensures_header formatted_public (by decide) fun context tidy => ?_
  exact tidy.ensures_last (by decide) 200 ok_plain fun _ => answeredOnce sound

theorem ensures_describe (sound : Sound self [] lost) (req : Request) :
    (self.describe env req).Ensures contextContract (.new cseq) AnsweredOnce := by
  rw [Server.describe]
  generalize requireHasTag req.headerMap (charSlice "www.onvif.org/ver20/backchannel") = supported
  obtain ⟨present, room, text⟩ := sdpLines_whole env supported
  rw [sdpDescribe_string]
  dsimp only
  rw [if_neg (Nat.not_le.mpr room), if_neg (by omega), Program.ensures_bind, text]
  refine (tidy_new cseq).ensures_header formatted_contentType (by decide) fun context tidy => ?_
  have body := tidy.withBody (sdpLines_notCr (Server.sdpLines env supported))
    (Nat.lt_trans room (by decide))
  refine (Program.ensures_bind _ _ _ _).mpr ⟨trivial, fun _ => ?_⟩
  have same : Sound { self with client :=
      { self.client with backchannelSupported := supported } } [] lost :=
    ⟨sound.ledger, sound.streams, sound.backchannel, sound.once, sound.pending, sound.events⟩
  exact body.ensures_last (by decide) 200 ok_plain fun _ => answeredOnce same

theorem ensures_pauseMethod (sound : Sound self [] lost) (req : Request) :
    (self.pauseMethod req).Ensures contextContract (.new cseq) AnsweredOnce :=
  (tidy_new cseq).ensures_last (by decide) 200 ok_plain fun _ => answeredOnce sound

theorem ensures_getParameter (sound : Sound self [] lost) (req : Request) :
    (self.getParameter req).Ensures contextContract (.new cseq) AnsweredOnce :=
  (tidy_new cseq).ensures_last (by decide) 200 ok_plain fun _ => answeredOnce sound

theorem ensures_unknown (sound : Sound self [] lost) (req : Request) :
    (self.unknown req).Ensures contextContract (.new cseq) AnsweredOnce :=
  (tidy_new cseq).ensures_last (by decide) 501 ⟨by decide, by decide +kernel⟩ fun _ =>
    answeredOnce sound

/-! ## SETUP -/

/-- The lower transport that is named goes without what it needs. -/
def incomplete (config : TransportConfig) : Bool :=
  if config.lower = .TCP then config.interleaved.isNone else config.clientPort.isNone

def twice (req : Request) : Bool :=
  ((req.headerMap.find headerTransport).bind Server.transportConfig).any incomplete

def SetupCodes (req : Request) (codes : List UInt16) : Prop :=
  if twice req then codes = [400, 500] else codes.length = 1

theorem Sound.dgramSocket {extra : List Nat} (sound : Sound self extra lost) :
    Sound (self.dgramSocket env).2 extra lost := by
  rw [Server.dgramSocket]
  split <;> exact ⟨sound.ledger, sound.streams, sound.backchannel, sound.once, sound.pending,
    sound.events⟩

theorem Sound.wrapped {extra : List Nat} {inner : Nat} (sound : Sound self (inner :: extra) lost) :
    ∃ t next, self.wrapped env inner = (t, next) ∧ t.cells ≠ [] ∧
      Sound next (t.cells ++ extra) lost := by
  rw [Server.wrapped]
  cases env.crypto with
  | none => exact ⟨⟨[inner], false⟩, self, rfl, List.cons_ne_nil _ _, sound⟩
  | some crypto =>
      refine ⟨_, _, rfl, List.cons_ne_nil _ _, sound.alloc.reorder ?_⟩
      exact .swap inner self.arena.next extra

/-- The two transports of a stream, and the header that names them. -/
def BothMade (lost : List Nat) (post : Server × Option (TransportPtr × TransportPtr) → Progress → Prop) :
    Prop :=
  ∀ server t rtcpT context, Sound server (t.cells ++ rtcpT.cells) lost → t.cells ≠ [] →
    Tidy 1 context →
    post (server, some (t, rtcpT)) ⟨context, []⟩

section

variable {context : Context} {post : Server × Option (TransportPtr × TransportPtr) → Progress → Prop}
  (sound : Sound self [] lost) (tidy : Tidy 0 context) (config : TransportConfig)

include sound tidy

theorem ensures_setupTcp (made : config.interleaved.isSome → BothMade lost post)
    (failed : config.interleaved = none → ∀ response, response.startLine.code = 400 →
      post (self, none) ⟨context, [response]⟩) :
    (self.setupTcp config).Ensures contextContract ⟨context, []⟩ post := by
  rw [Server.setupTcp]
  cases found : config.interleaved with
  | none =>
      refine (Program.ensures_bind _ _ _ _).mpr ?_
      exact tidy.ensures_code (by decide) 400 ⟨by decide, by decide⟩ fun ret => failed found
  | some channels =>
      refine (Program.ensures_bind _ _ _ _).mpr ?_
      refine tidy.ensures_header (formatted_tcp channels.rtpChannel channels.rtcpChannel)
        (by decide) fun context tidy => ?_
      rw [found] at made
      exact made rfl _ ⟨[self.arena.next], true⟩ ⟨[self.arena.next + 1], true⟩ context
        (sound.alloc.alloc.reorder (.swap _ _ _)) (List.cons_ne_nil _ _) tidy

theorem ensures_setupUdp (made : config.clientPort.isSome → BothMade lost post)
    (failed : ∀ server, Sound server [] lost → config.clientPort.isSome →
      post (server, none) ⟨context, []⟩)
    (missing : config.clientPort = none → ∀ response, response.startLine.code = 400 →
      post (self, none) ⟨context, [response]⟩) :
    (self.setupUdp env config).Ensures contextContract ⟨context, []⟩ post := by
  rw [Server.setupUdp]
  cases found : config.clientPort with
  | none =>
      refine (Program.ensures_bind _ _ _ _).mpr ?_
      exact tidy.ensures_code (by decide) 400 ⟨by decide, by decide⟩ fun ret => missing found
  | some clientPort =>
      rw [found] at made failed
      have one := sound.dgramSocket env
      dsimp only
      generalize self.dgramSocket env = first at one ⊢
      obtain ⟨_ | serverRtpPort, first⟩ := first
      · exact failed first one rfl
      have two := one.dgramSocket env
      dsimp only at two ⊢
      generalize first.dgramSocket env = second at two ⊢
      obtain ⟨_ | serverRtcpPort, second⟩ := second
      · exact failed _ ⟨two.ledger, two.streams, two.backchannel, two.once, two.pending,
          two.events⟩ rfl
      dsimp only at two ⊢
      have both : Sound second.alloc.2.alloc.2 [second.arena.next, second.arena.next + 1] lost :=
        two.alloc.alloc.reorder (.swap _ _ _)
      obtain ⟨t, third, rtp, some_, three⟩ := both.wrapped env
      obtain ⟨rtcpT, fourth, rtcp, _, four⟩ :=
        (three.reorder List.perm_append_comm).wrapped env
      change Program.Ensures contextContract
        (let wrapped := Server.wrapped env second.alloc.2.alloc.2 second.arena.next
         let rtcpWrapped := Server.wrapped env wrapped.2 (second.arena.next + 1)
         Handling.header _ _ >>= fun _ =>
          pure (rtcpWrapped.2, some (wrapped.1, rtcpWrapped.1))) ⟨context, []⟩ post
      rw [rtp]
      dsimp only
      rw [rtcp, Program.ensures_bind]
      refine tidy.ensures_header (formatted_udp clientPort.rtpPort clientPort.rtcpPort serverRtpPort
        serverRtcpPort) (by decide) fun context tidy => ?_
      exact made rfl _ t rtcpT context (four.reorder List.perm_append_comm) some_ tidy

end

theorem internalError_plain : PlainText (charSlice "Internal error") :=
  ⟨by decide, by decide +kernel⟩

theorem setupCodes_once {req : Request} (once : twice req = false) (code : UInt16) :
    SetupCodes req [code] := by
  rw [SetupCodes, once]
  exact rfl

theorem ensures_setupTransport {post : Server × Option (TransportPtr × TransportPtr) → Progress → Prop}
    (sound : Sound self [] lost) (req : Request) (made : twice req = false → BothMade lost post)
    (failed : ∀ server progress, Sound server [] lost → SetupCodes req (codes progress) →
      post (server, none) progress) :
    (self.setupTransport env req).Ensures contextContract (.new cseq) post := by
  have tidy := tidy_new cseq
  have last (server : Server) (kept : Sound server [] lost) (sent : List Response)
      (right : SetupCodes req (sent.map (·.startLine.code) ++ [500])) :
      (Handling.respondInternalError >>= fun _ => pure (server, none)).Ensures contextContract
        ⟨.new cseq, sent⟩ post := by
    refine (Program.ensures_bind _ _ _ _).mpr ?_
    refine tidy.ensures_code (by decide) 500 internalError_plain fun ret response same => ?_
    refine failed server _ kept ?_
    rwa [codes, List.map_append, List.map_singleton, same]
  rw [Server.setupTransport]
  cases header : req.headerMap.find headerTransport with
  | none =>
      have once : twice req = false := by
        rw [twice, header]
        rfl
      refine tidy.ensures_last (by decide) 400 ⟨by decide, by decide +kernel⟩ fun progress same => ?_
      refine failed self progress sound ?_
      rw [same]
      exact setupCodes_once once 400
  | some value =>
      dsimp only
      cases named : Server.transportConfig value with
      | none =>
          have once : twice req = false := by
            rw [twice, header, Option.bind_some, named]
            rfl
          refine tidy.ensures_last (by decide) 400 ⟨by decide, by decide +kernel⟩
            fun progress same => ?_
          refine failed self progress sound ?_
          rw [same]
          exact setupCodes_once once 400
      | some config =>
          have times : twice req = incomplete config := by
            rw [twice, header, Option.bind_some, named]
            rfl
          refine (Program.ensures_bind _ _ _ _).mpr ?_
          rw [Server.setupLower]
          cases lower : config.lower with
          | TCP =>
              rw [incomplete, lower, if_pos rfl] at times
              refine ensures_setupTcp sound tidy config (fun some_ => ?_) fun none_ response same => ?_
              · have once : twice req = false := by
                  rw [times, ← Option.not_isSome, some_]
                  rfl
                exact made once
              · refine last self sound [response] ?_
                rw [SetupCodes, times, none_, List.map_singleton, same]
                exact rfl
          | UDP =>
              rw [incomplete, lower, if_neg (by decide)] at times
              have once (some_ : config.clientPort.isSome) : twice req = false := by
                rw [times, ← Option.not_isSome, some_]
                rfl
              refine ensures_setupUdp env sound tidy config (fun some_ => made (once some_))
                (fun server kept some_ => ?_) fun none_ response same => ?_
              · exact last server kept [] (setupCodes_once (once some_) 500)
              · refine last self sound [response] ?_
                rw [SetupCodes, times, none_, List.map_singleton, same]
                exact rfl

theorem Sound.sessionOf {extra : List Nat} (sound : Sound self extra lost) (req : Request) :
    Sound (self.sessionOf env req).2 extra lost := by
  rw [Server.sessionOf]
  split <;> exact ⟨sound.ledger, sound.streams, sound.backchannel, sound.once, sound.pending,
    sound.events⟩

theorem malformedSession_plain : PlainText (charSlice "Malformed `Session'") :=
  ⟨by decide, by decide +kernel⟩

theorem ensures_setup (sound : Sound self [] lost) (req : Request) :
    (self.setup env req).Ensures contextContract (.new cseq) fun result progress =>
      Fine result ∧ SetupCodes req (codes progress) := by
  refine (Program.ensures_bind _ _ _ _).mpr ?_
  refine ensures_setupTransport env sound req ?_ ?_
  · intro once server t rtcpT context made some_ tidy
    have drawn := made.sessionOf env req
    dsimp only
    generalize server.sessionOf env req = session at drawn ⊢
    obtain ⟨_ | sessionId, server⟩ := session
    · refine tidy.ensures_last (by decide) 400 malformedSession_plain fun progress same => ?_
      have strayed := drawn.stray (List.append_ne_nil_of_left_ne_nil some_ rtcpT.cells)
      refine ⟨⟨_, _, rfl, strayed⟩, ?_⟩
      rw [same]
      exact setupCodes_once once 400
    · obtain ⟨next, lost', ran, kept⟩ := drawn.setupAt (Server.streamOfUri req.startLine.uri) sessionId
      dsimp only
      rw [ran]
      refine (Program.ensures_bind _ _ _ _).mpr ?_
      refine tidy.ensures_header (formatted_session sessionId) (by decide) fun context tidy => ?_
      refine tidy.ensures_last (by decide) 200 ok_plain fun progress same => ?_
      refine ⟨⟨_, lost', rfl, kept⟩, ?_⟩
      rw [same]
      exact setupCodes_once once 200
  · intro server progress kept right
    exact ⟨⟨server, lost, rfl, kept⟩, right⟩

/-! ## PLAY and TEARDOWN -/

/-- The request asks only for what is there. -/
structure Orderly (server : Server) (req : Request) : Prop where
  play : req.startLine.method = charSlice "PLAY" → ∀ sessionId,
    scanHeaderU64 req.headerMap headerSession = some sessionId → ∀ i,
      (server.stream i).sessionId = sessionId → (server.stream i).transport.isSome
  teardown : req.startLine.method = charSlice "TEARDOWN" → ∀ sessionId,
    scanHeaderU64 req.headerMap headerSession = some sessionId → ∀ i,
      (server.stream i).sessionId = sessionId → (server.stream i).ev.isSome

theorem invalidSession_plain : PlainText (charSlice "Invalid Session ID") :=
  ⟨by decide, by decide +kernel⟩

theorem ensures_play (sound : Sound self [] lost) (req : Request)
    (ready : ∀ sessionId, scanHeaderU64 req.headerMap headerSession = some sessionId → ∀ i,
      (self.stream i).sessionId = sessionId → (self.stream i).transport.isSome) :
    (self.play env req).Ensures contextContract (.new cseq) AnsweredOnce := by
  have tidy := tidy_new cseq
  rw [Server.play]
  cases scanned : scanHeaderU64 req.headerMap headerSession with
  | none => exact tidy.ensures_last (by decide) 400 malformedSession_plain fun _ =>
      answeredOnce sound
  | some sessionId =>
      obtain ⟨next, played, lost', ran, kept⟩ := sound.plays env sessionId allStreams
        (fun i _ => ready sessionId scanned i) false
      dsimp only
      rw [ran]
      cases played with
      | false => exact tidy.ensures_last (by decide) 454 invalidSession_plain fun _ =>
          answeredOnce kept
      | true =>
          refine (Program.ensures_bind _ _ _ _).mpr ?_
          refine tidy.ensures_header formatted_range (by decide) fun context tidy => ?_
          exact tidy.ensures_last (by decide) 200 ok_plain fun _ =>
            answeredOnce kept

theorem ensures_teardown (sound : Sound self [] lost) (req : Request)
    (ready : ∀ sessionId, scanHeaderU64 req.headerMap headerSession = some sessionId → ∀ i,
      (self.stream i).sessionId = sessionId → (self.stream i).ev.isSome) :
    (self.teardown req).Ensures contextContract (.new cseq) AnsweredOnce := by
  have tidy := tidy_new cseq
  rw [Server.teardown]
  cases scanned : scanHeaderU64 req.headerMap headerSession with
  | none => exact tidy.ensures_last (by decide) 400 malformedSession_plain fun _ =>
      answeredOnce sound
  | some sessionId =>
      obtain ⟨next, teardowned, ran, kept⟩ := sound.stops sessionId allStreams
        (fun i _ => ready sessionId scanned i) false
      dsimp only
      rw [ran]
      cases teardowned with
      | false => exact tidy.ensures_last (by decide) 454 invalidSession_plain fun _ =>
          answeredOnce kept
      | true => exact tidy.ensures_last (by decide) 200 ok_plain fun _ =>
          answeredOnce kept

/-! ## Any request -/

def Answered (req : Request) (codes : List UInt16) : Prop :=
  if req.startLine.method = charSlice "SETUP" then SetupCodes req codes else codes.length = 1

theorem ensures_handler (sound : Sound self [] lost) {req : Request} (orderly : Orderly self req) :
    ((clientController env).handler req.startLine.method (.ok self) req).Ensures contextContract
      (.new cseq) fun result progress => Fine result ∧ Answered req (codes progress) := by
  have once {program : Handling (Access Server)} (other : req.startLine.method ≠ charSlice "SETUP")
      (ensures : program.Ensures contextContract (.new cseq) AnsweredOnce) :
      program.Ensures contextContract (.new cseq) fun result progress =>
        Fine result ∧ Answered req (codes progress) := by
    refine ensures.mono fun result progress answered => ⟨answered.1, ?_⟩
    rw [Answered, if_neg other]
    exact answered.2
  rw [Controller.handler, clientController]
  split_ifs with options describe setup play pause teardown getParameter
  · exact once (by rw [options]; decide) (ensures_options sound req)
  · have described := @ensures_describe env self lost cseq sound req
    -- the program is not to be run on its way through the rules
    change (self.describe env req).Ensures contextContract (.new cseq) _
    generalize self.describe env req = program at described ⊢
    exact once (by rw [describe]; decide) described
  · refine (ensures_setup env sound req).mono fun result progress answered => ⟨answered.1, ?_⟩
    rw [Answered, if_pos setup]
    exact answered.2
  · exact once (by rw [play]; decide) (ensures_play env sound req (orderly.play play))
  · exact once (by rw [pause]; decide) (ensures_pauseMethod sound req)
  · exact once (by rw [teardown]; decide) (ensures_teardown sound req (orderly.teardown teardown))
  · exact once (by rw [getParameter]; decide) (ensures_getParameter sound req)
  · exact once setup (ensures_unknown sound req)

theorem ensures_handle (sound : Sound self [] lost) {req : Request} (orderly : Orderly self req) :
    ((clientController env).handle req (.ok self)).Ensures contextContract (.new req.cseq)
      fun result progress => Fine result ∧ Answered req (codes progress) := by
  refine (Program.ensures_bind _ _ _ _).mpr ?_
  refine (Program.ensures_bind _ _ _ _).mpr ?_
  exact (ensures_handler env sound orderly).mono fun result progress answered => ⟨trivial, fun _ =>
    answered⟩

end

end Compy.Connection
