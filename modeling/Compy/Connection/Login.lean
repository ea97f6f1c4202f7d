import Compy.Connection.Multiplexing
import Compy.DigestAuth.Answers

/-!
# Logging in

Controllers behind `compy_auth_check`, as `Client_before` of the example server calls it: all
connections share the nonce.  A client is challenged, answers what it has read from the
connection, and is served as it would be without the check.
-/

set_option autoImplicit false

namespace Compy.Connection

open CheckedBytes Framing Interaction IncrementalParsing StreamParsing Compy.Rtsp Compy.DigestAuth
open MutualExclusion (ofThread)

variable {W σ : Type}

/-! ## The guard -/

/-- `compy_auth_check` on the context of a request; `raw` are the random bytes for a nonce. -/
def compyAuthCheck (auth : Auth) (raw : Option Raw) (req : Request) : Handling (Int × Auth) :=
  if auth.accepts req then pure (0, auth)
  else do
    let auth := auth.renew raw
    Handling.header headerWwwAuthenticate auth.challengeValue
    let _ ← Handling.respond 401 (charSlice "Unauthorized")
    return (-1, auth)

/-- `g_auth`, and the random bytes of the challenges to come. -/
structure Guard where
  auth : Option Auth
  raws : List (Option Raw)

structure Guarded (σ : Type) where
  guard : Guard
  own : σ

def Guard.check (self : Guard) (req : Request) : Handling (Int × Guard) :=
  match self.auth with
  | none => return (0, self)
  | some auth => do
      let (ret, auth) ← compyAuthCheck auth self.raws.head?.join req
      return (ret, ⟨some auth, if ret = 0 then self.raws else self.raws.tail⟩)

def behindGuard (method : σ → Request → Handling σ) (self : Guarded σ) (req : Request) :
    Handling (Guarded σ) := do
  let own ← method self.own req
  return { self with own := own }

def guarded (controller : Controller σ) : Controller (Guarded σ) where
  options := behindGuard controller.options
  describe := behindGuard controller.describe
  setup := behindGuard controller.setup
  play := behindGuard controller.play
  pauseMethod := behindGuard controller.pauseMethod
  teardown := behindGuard controller.teardown
  getParameter := behindGuard controller.getParameter
  unknown := behindGuard controller.unknown
  before self req := do
    let (ret, guard) ← self.guard.check req
    if ret ≠ 0 then return (.Break, { self with guard := guard })
    else
      let (flow, own) ← controller.before self.own req
      return (flow, ⟨guard, own⟩)
  after ret := behindGuard (controller.after ret)

theorem guarded_handler (controller : Controller σ) (method : List UInt8) :
    (guarded controller).handler method = behindGuard (controller.handler method) := by
  rw [Controller.handler, Controller.handler]
  split_ifs <;> rfl

section

variable (w : Writer W) (exchange : Exchange W)

theorem run_behindGuard (method : σ → Request → Handling σ) (self : Guarded σ) (req : Request) :
    (behindGuard method self req).run (contextCalls w) exchange =
      ((method self.own req).run (contextCalls w) exchange).map fun (own, exchange) =>
        ({ self with own := own }, exchange) := by
  rw [behindGuard, Program.run_bind]
  cases (method self.own req).run (contextCalls w) exchange <;> rfl

theorem check_accepted {auth : Auth} {req : Request} (accepted : auth.accepts req = true)
    (raws : List (Option Raw)) : Guard.check ⟨some auth, raws⟩ req = pure (0, ⟨some auth, raws⟩) := by
  simp only [Guard.check, compyAuthCheck, if_pos accepted]
  rfl

/-- An accepted request is handled as it would be without the guard. -/
theorem dispatch_accepted (controller : Controller σ) {auth : Auth} {req : Request}
    (accepted : auth.accepts req = true) (raws : List (Option Raw)) (own : σ) (conn : W) :
    dispatch w (guarded controller) req ⟨⟨some auth, raws⟩, own⟩ conn =
      (dispatch w controller req own conn).map fun (own, conn) =>
        (⟨⟨some auth, raws⟩, own⟩, conn) := by
  have before : (guarded controller).before ⟨⟨some auth, raws⟩, own⟩ req = (do
      let (flow, own) ← controller.before own req
      return (flow, ⟨⟨some auth, raws⟩, own⟩)) := by
    rw [guarded]
    dsimp only
    rw [check_accepted accepted]
    rfl
  have handled (exchange : Exchange W) :
      ((guarded controller).handle req ⟨⟨some auth, raws⟩, own⟩).run (contextCalls w) exchange =
        ((controller.handle req own).run (contextCalls w) exchange).map fun (own, exchange) =>
          (⟨⟨some auth, raws⟩, own⟩, exchange) := by
    rw [Controller.handle, Controller.handle, before]
    simp only [Program.run_bind, guarded_handler]
    cases (controller.before own req).run (contextCalls w) exchange with
    | error fault => rfl
    | ok first =>
        obtain ⟨⟨flow, middle⟩, exchange'⟩ := first
        have rest (middle : σ) (exchange : Exchange W) :
            (do let ret ← Handling.getRet
                (guarded controller).after ret ⟨⟨some auth, raws⟩, middle⟩ req :
              Handling (Guarded σ)).run (contextCalls w) exchange =
            ((do let ret ← Handling.getRet
                 controller.after ret middle req : Handling σ).run (contextCalls w) exchange).map
              fun (own, exchange) => (⟨⟨some auth, raws⟩, own⟩, exchange) :=
          run_behindGuard w exchange (controller.after exchange.ret) ⟨⟨some auth, raws⟩, middle⟩ req
        cases flow with
        | Break => exact rest middle exchange'
        | Continue =>
            have method := run_behindGuard w exchange' (controller.handler req.startLine.method)
              ⟨⟨some auth, raws⟩, middle⟩ req
            change (behindGuard (controller.handler req.startLine.method)
              ⟨⟨some auth, raws⟩, middle⟩ req >>= fun self => do
                let ret ← Handling.getRet
                (guarded controller).after ret self req).run (contextCalls w) exchange' =
              ((controller.handler req.startLine.method middle req >>= fun self => do
                let ret ← Handling.getRet
                controller.after ret self req).run (contextCalls w) exchange').map _
            rw [Program.run_bind, method, Program.run_bind]
            cases (controller.handler req.startLine.method middle req).run (contextCalls w)
                exchange' with
            | error fault => rfl
            | ok second => exact rest second.1 second.2
  rw [dispatch, dispatch, handled]
  cases (controller.handle req own).run (contextCalls w) (.new conn req.cseq) <;> rfl

/-! ## A challenge -/

/-- The context of the response to a request that is not accepted. -/
def challengeContext (auth : Auth) (cseq : UInt32) : Context :=
  (Context.new cseq).header headerWwwAuthenticate auth.challengeValue (new_room cseq)

theorem challenge_formattable (auth : Auth) :
    0 < auth.challengeValue.length ∧ auth.challengeValue.length < 2 ^ 31 - 1 := by
  have realm := auth.realm.fits
  have nonce := auth.nonce.fits
  have front : (charSlice "Digest realm=\"").length = 14 := by decide +kernel
  have middle : (charSlice "\", nonce=\"").length = 10 := by decide +kernel
  have last : (charSlice "\"").length = 1 := by decide +kernel
  simp only [Auth.challengeValue, List.length_append, front, middle, last]
  omega

def challenged (auth : Auth) (cseq : UInt32) (conn : W) : Exchange W where
  context := challengeContext auth cseq
  writer := (Response.serialize w (auth.challenge (.new cseq) (new_room cseq)) conn).2
  ret := (Response.serialize w (auth.challenge (.new cseq) (new_room cseq)) conn).1

/-- What is done for a refused request; `after` finds the challenge in its context. -/
def afterChallenge (controller : Controller σ) (auth : Auth) (req : Request) (own : σ) (conn : W) :
    Access (σ × W) := do
  let exchange := challenged w auth req.cseq conn
  let (own, exchange) ← (controller.after exchange.ret own req).run (contextCalls w) exchange
  return (own, exchange.writer)

theorem dispatch_refused (controller : Controller σ) {auth : Auth} {req : Request}
    (refused : auth.accepts req = false) (raws : List (Option Raw)) (own : σ) (conn : W) :
    dispatch w (guarded controller) req ⟨⟨some auth, raws⟩, own⟩ conn =
      (afterChallenge w controller (auth.renew raws.head?.join) req own conn).map
        fun (own, conn) => (⟨⟨some (auth.renew raws.head?.join), raws.tail⟩, own⟩, conn) := by
  generalize renewed : auth.renew raws.head?.join = fresh
  obtain ⟨present, short⟩ := challenge_formattable fresh
  have formatted := vheader_ok (.new req.cseq) headerWwwAuthenticate fresh.challengeValue present
    short (new_room req.cseq)
  have checked : Guard.check ⟨some auth, raws⟩ req = (do
      Handling.header headerWwwAuthenticate fresh.challengeValue
      let _ ← Handling.respond 401 (charSlice "Unauthorized")
      return (-1, ⟨some fresh, raws.tail⟩)) := by
    simp only [Guard.check, compyAuthCheck, refused, renewed]
    rfl
  have header : (Handling.header headerWwwAuthenticate fresh.challengeValue).run
      (contextCalls w) (.new conn req.cseq) =
        .ok ((), { Exchange.new conn req.cseq with
          context := challengeContext fresh req.cseq }) := by
    rw [Handling.header, Program.perform, Program.run, contextCalls, Exchange.new, formatted]
    rfl
  have before : ((guarded controller).before ⟨⟨some auth, raws⟩, own⟩ req).run (contextCalls w)
      (.new conn req.cseq) =
        .ok ((.Break, ⟨⟨some fresh, raws.tail⟩, own⟩), challenged w fresh req.cseq conn) := by
    rw [guarded]
    dsimp only
    rw [checked]
    simp only [Program.run_bind, header]
    rfl
  have after := run_behindGuard w (challenged w fresh req.cseq conn)
    (controller.after (challenged w fresh req.cseq conn).ret) ⟨⟨some fresh, raws.tail⟩, own⟩ req
  rw [dispatch, Controller.handle, Program.run_bind, before]
  change (behindGuard (controller.after (challenged w fresh req.cseq conn).ret)
    ⟨⟨some fresh, raws.tail⟩, own⟩ req).run (contextCalls w) (challenged w fresh req.cseq conn) >>=
      _ = _
  rw [after, afterChallenge]
  cases (controller.after (challenged w fresh req.cseq conn).ret own req).run (contextCalls w)
      (challenged w fresh req.cseq conn) <;> rfl

/-! ## Whatever arrives -/

variable {ι : Type} [DecidableEq ι]

/-- `compy_dispatch` on one of the connections: its controller and its writer. -/
def serveOn (controller : Controller σ) (i : ι) (req : Request) (states : ι → σ × W) :
    Access (ι → σ × W) := do
  let state ← dispatch w controller req (states i).1 (states i).2
  return Function.update states i state

/-- The same behind the guard, which there is one of for all connections. -/
def serveGuarded (controller : Controller σ) (i : ι) (req : Request) :
    Guard × (ι → σ × W) → Access (Guard × (ι → σ × W)) := fun (guard, states) => do
  let (self, conn) ← dispatch w (guarded controller) req ⟨guard, (states i).1⟩ (states i).2
  return (self.guard, Function.update states i (self.own, conn))

inductive Visit where
  | served (req : Request)
  | refused (auth : Auth) (req : Request)

def runVisits (controller : Controller σ) :
    List (ι × Visit) → (ι → σ × W) → Access (ι → σ × W)
  | [], states => .ok states
  | (i, .served req) :: visits, states => do
      let states ← serveOn w controller i req states
      runVisits controller visits states
  | (i, .refused auth req) :: visits, states => do
      let state ← afterChallenge w controller auth req (states i).1 (states i).2
      runVisits controller visits (Function.update states i state)

omit [DecidableEq ι] in
/-- The requests that get through are those with credentials for the nonce in force, whatever
connection it was made on; every other one makes a nonce. -/
inductive Guards : Auth → List (Option Raw) → List (ι × Request) → List (ι × Visit) → Prop where
  | none {auth : Auth} {raws : List (Option Raw)} : Guards auth raws [] []
  | served {auth : Auth} {raws : List (Option Raw)} {i : ι} {req : Request}
      {reqs : List (ι × Request)} {visits : List (ι × Visit)} {params : Params}
      {password : CStr 255} (read : Auth.params req = some params)
      (credentials : auth.Credentials req params password)
      (later : Guards auth raws reqs visits) :
      Guards auth raws ((i, req) :: reqs) ((i, .served req) :: visits)
  | refused {auth : Auth} {raws : List (Option Raw)} {i : ι} {req : Request}
      {reqs : List (ι × Request)} {visits : List (ι × Visit)}
      (without : ∀ params password, Auth.params req = some params →
        ¬ auth.Credentials req params password)
      (later : Guards (auth.renew raws.head?.join) raws.tail reqs visits) :
      Guards auth raws ((i, req) :: reqs)
        ((i, .refused (auth.renew raws.head?.join) req) :: visits)

theorem serveGuarded_accepted (controller : Controller σ) {auth : Auth} {req : Request}
    (accepted : auth.accepts req = true) (raws : List (Option Raw)) (i : ι)
    (states : ι → σ × W) : serveGuarded w controller i req (⟨some auth, raws⟩, states) =
      (serveOn w controller i req states).map fun states => (⟨some auth, raws⟩, states) := by
  rw [serveGuarded, serveOn, dispatch_accepted w controller accepted]
  cases dispatch w controller req (states i).1 (states i).2 <;> rfl

theorem serveGuarded_refused (controller : Controller σ) {auth : Auth} {req : Request}
    (refused : auth.accepts req = false) (raws : List (Option Raw)) (i : ι)
    (states : ι → σ × W) : serveGuarded w controller i req (⟨some auth, raws⟩, states) =
      (afterChallenge w controller (auth.renew raws.head?.join) req (states i).1
        (states i).2).map fun state =>
          (⟨some (auth.renew raws.head?.join), raws.tail⟩, Function.update states i state) := by
  rw [serveGuarded, dispatch_refused w controller refused]
  cases afterChallenge w controller (auth.renew raws.head?.join) req (states i).1
    (states i).2 <;> rfl

end

section

variable {ι : Type} [DecidableEq ι]

theorem guards_dispatchOn (reqs : List (ι × Request)) (auth : Auth) (raws : List (Option Raw)) :
    ∃ (visits : List (ι × Visit)) (guard : Guard), Guards auth raws reqs visits ∧
      ∀ {W σ : Type} (w : Writer W) (controller : Controller σ) (states : ι → σ × W),
        dispatchOn (serveGuarded w controller) reqs (⟨some auth, raws⟩, states) =
          (runVisits w controller visits states).map fun states => (guard, states) := by
  induction reqs generalizing auth raws with
  | nil => exact ⟨[], _, .none, fun w controller states => rfl⟩
  | cons first reqs ih =>
      obtain ⟨i, req⟩ := first
      cases outcome : auth.accepts req with
      | true =>
          obtain ⟨params, password, read, credentials⟩ := (auth.accepts_iff req).mp outcome
          obtain ⟨visits, guard, guards, runs⟩ := ih auth raws
          refine ⟨(i, .served req) :: visits, guard, .served read credentials guards, ?_⟩
          intro W σ w controller states
          rw [dispatchOn, runVisits, serveGuarded_accepted w controller outcome]
          cases serveOn w controller i req states with
          | error fault => rfl
          | ok next => exact runs w controller next
      | false =>
          have without (params : Params) (password : CStr 255)
              (read : Auth.params req = some params) :
              ¬ auth.Credentials req params password := fun credentials => by
            have accepted := (auth.accepts_iff req).mpr ⟨params, password, read, credentials⟩
            rw [outcome] at accepted
            contradiction
          obtain ⟨visits, guard, guards, runs⟩ := ih (auth.renew raws.head?.join) raws.tail
          refine ⟨_, guard, .refused without guards, ?_⟩
          intro W σ w controller states
          rw [dispatchOn, runVisits, serveGuarded_refused w controller outcome]
          cases afterChallenge w controller (auth.renew raws.head?.join) req (states i).1
              (states i).2 with
          | error fault => rfl
          | ok next => exact runs w controller (Function.update states i next)

/-- Whatever bytes arrive on whatever connections, the controllers behind the guard are run for
the requests with credentials for the nonce in force, in their order, and for no other. -/
theorem guard_protects (inputs : List (ι × List UInt8)) (auth : Auth)
    (raws : List (Option Raw)) :
    ∃ (ctxs : ι → LibeventCtx) (reqs : List (ι × Request)) (visits : List (ι × Visit))
        (guard : Guard), Guards auth raws reqs visits ∧
      ((∃ i, Overruns .new (ofThread i inputs)) ∧
          (∀ i, Serves Request.parse (ofThread i inputs).flatten (ofThread i reqs) []) ∧
          (∀ {W σ : Type} (w : Writer W) (controller : Controller σ) (states : ι → σ × W),
            runConnections (serveGuarded w controller) inputs (fun _ => .new)
                (⟨some auth, raws⟩, states) =
              runVisits w controller visits states >>= fun _ => .error .outOfBounds) ∨
        (∀ i, ¬ Overruns .new (ofThread i inputs)) ∧
          (∀ i, Serves Request.parse (ofThread i inputs).flatten (ofThread i reqs)
            (ctxs i).data) ∧
          ∀ {W σ : Type} (w : Writer W) (controller : Controller σ) (states : ι → σ × W),
            runConnections (serveGuarded w controller) inputs (fun _ => .new)
                (⟨some auth, raws⟩, states) =
              (runVisits w controller visits states).map fun states =>
                (ctxs, guard, states)) := by
  obtain ⟨ctxs, reqs, _, outcome⟩ :=
    @connections_dispatch _ _ inputs (fun _ => .new) fun _ => LibeventCtx.new_valid
  obtain ⟨visits, guard, guards, runs⟩ := guards_dispatchOn reqs auth raws
  have overruns (i : ι) := LibeventCtx.new_valid.overruns_iff (ofThread i inputs)
  refine ⟨ctxs, reqs, visits, guard, guards, ?_⟩
  rcases outcome with ⟨⟨i, left⟩, fronts, failed⟩ | ⟨all, ends, done⟩
  · refine Or.inl ⟨⟨i, (overruns i).mpr left⟩, fun i => ?_, fun w controller states => ?_⟩
    · obtain ⟨later, whole⟩ := fronts i
      have serves := servedBy_serves (ofThread i inputs)
      rw [← whole] at serves
      exact serves.front
    · rw [failed, runs]
      cases runVisits w controller visits states <;> rfl
  · refine Or.inr ⟨fun i overrun => ?_, fun i => ?_, fun w controller states => ?_⟩
    · have left := (overruns i).mp overrun
      rw [all i] at left
      exact Bool.false_ne_true left
    · have serves := servedBy_serves (ofThread i inputs)
      rw [all i, if_neg Bool.false_ne_true, ← ends i] at serves
      exact serves
    · rw [done, runs]
      cases runVisits w controller visits states <;> rfl

end

/-! ## What a client reads -/

def LineText (text : List UInt8) : Prop := ∀ c ∈ text, Quotable c ∧ c ≠ '\r'.toUInt8

theorem hex_lineText (bytes : List UInt8) : LineText (hex bytes) := by
  intro c member
  refine ⟨hex_quotable bytes c member, ?_⟩
  rintro rfl
  obtain ⟨byte, _, digit⟩ := List.mem_flatMap.mp member
  have high (n : UInt8) (small : n.toNat < 16) : '\r'.toUInt8 ≠ hexDigit n := by
    intro same
    have value := hexDigit_toNat n small
    rw [← same, show '\r'.toUInt8.toNat = 13 from rfl] at value
    split at value <;> omega
  simp only [List.mem_cons, List.not_mem_nil, or_false] at digit
  rcases digit with first | second
  · exact high _ (by rw [UInt8.toNat_div]; have bound := byte.toNat_lt; show _ / 16 < 16; omega) first
  · exact high _ (by rw [UInt8.toNat_mod]; exact Nat.mod_lt _ (by decide)) second

def challengeOf (response : Response) : Option (List UInt8 × List UInt8) :=
  (response.headerMap.find headerWwwAuthenticate).map fun value =>
    let params := digestParams (value.drop digestPrefix.length)
    (lastValue params "realm", lastValue params "nonce")

theorem no_separators : ∀ c ∈ ([] : List UInt8), isSeparator c = true := fun _ none =>
  absurd none List.not_mem_nil

def firstParam (key : String) (value : List UInt8)
    (name : (charSlice key).length < keyMax ∧ ∀ c ∈ charSlice key, keyChar c = true)
    (quoted : value.length < valueMax ∧ ∀ c ∈ value, Quotable c) : DigestAuth.Piece where
  gap := []
  key := charSlice key
  value := value
  separators := no_separators
  name := name
  quoted := quoted

section

variable {auth : Auth} (realm : LineText auth.realm.text) (nonce : LineText auth.nonce.text)

include realm nonce

theorem challengeValue_params : digestParams (auth.challengeValue.drop digestPrefix.length) =
    [(charSlice "realm", auth.realm.text), (charSlice "nonce", auth.nonce.text)] := by
  have realmFits := auth.realm.fits
  have nonceFits := auth.nonce.fits
  have pieces := @digestParams_pieces [
    firstParam "realm" auth.realm.text (by decide +kernel)
      ⟨by rw [valueMax]; omega, fun c member => (realm c member).1⟩,
    DigestAuth.Piece.next "nonce" auth.nonce.text (by decide +kernel)
      ⟨by rw [valueMax]; omega, fun c member => (nonce c member).1⟩]
    [] (fun _ none => absurd none List.not_mem_nil)
  have layout : auth.challengeValue = digestPrefix ++ ((charSlice "realm" ++
      ('='.toUInt8 :: '"'.toUInt8 :: (auth.realm.text ++ ['"'.toUInt8]))) ++ (charSlice ", " ++
        (charSlice "nonce" ++ ('='.toUInt8 :: '"'.toUInt8 ::
          (auth.nonce.text ++ ['"'.toUInt8]))))) := by
    simp [Auth.challengeValue, digestPrefix, charSlice]
  rw [layout, List.drop_left]
  simpa [DigestAuth.Piece.bytes, firstParam, DigestAuth.Piece.next, DigestAuth.Piece.param]
    using pieces

theorem challengeValue_plain : PlainText auth.challengeValue where
  start := by
    have head : auth.challengeValue.head? = some 'D'.toUInt8 := rfl
    rw [head]
    decide
  line inside := by
    have member := inside.subset (List.mem_cons_self : '\r'.toUInt8 ∈ crlf)
    simp only [Auth.challengeValue, List.mem_append] at member
    rcases member with (((front | inRealm) | between) | inNonce) | behind
    · exact absurd front (by decide)
    · exact (realm _ inRealm).2 rfl
    · exact absurd between (by decide)
    · exact (nonce _ inNonce).2 rfl
    · exact absurd behind (by decide)

theorem challenge_formatted : Formatted headerWwwAuthenticate auth.challengeValue where
  writable := ⟨List.cons_ne_nil _ _, List.all_eq_true.mp rfl, challengeValue_plain realm nonce⟩
  other := ⟨by decide, by decide⟩
  noNul inside := by
    simp only [Auth.challengeValue, List.mem_append] at inside
    rcases inside with (((front | inRealm) | between) | inNonce) | behind
    · exact absurd front (by decide)
    · exact (realm _ inRealm).1.1 rfl
    · exact absurd between (by decide)
    · exact (nonce _ inNonce).1.1 rfl
    · exact absurd behind (by decide)
  present := (challenge_formattable auth).1
  short := (challenge_formattable auth).2

/-- The client reads the challenge off the connection. -/
theorem challenge_read {w : Writer W} {written : W → List UInt8} (never : w.NeverFails written)
    (cseq : UInt32) (conn : W) : ∃ bytes response,
      written (challenged w auth cseq conn).writer = written conn ++ bytes ∧
      (∀ past, readItem past bytes = .ok (.response response, [])) ∧ response.cseq = cseq ∧
      response.startLine.code = 401 ∧
      challengeOf response = some (auth.realm.text, auth.nonce.text) := by
  have writable : (auth.challenge (.new cseq) (new_room cseq)).Writable ResponseLine.Writable :=
    ((tidy_new cseq).header (challenge_formatted realm nonce) (new_room cseq)).respond (by decide)
      401 ⟨by decide, by decide⟩
  have sent := use_written never (.respond (auth.challenge (.new cseq) (new_room cseq))) conn
  have value : challengeOf (delivered (auth.challenge (.new cseq) (new_room cseq))) =
      some (auth.realm.text, auth.nonce.text) := by
    have room := writable.room
    rw [← List.length_append] at room
    have found : (delivered (auth.challenge (.new cseq) (new_room cseq))).headerMap.find
        headerWwwAuthenticate = some auth.challengeValue := by
      rw [delivered, dif_pos room]
      rfl
    rw [challengeOf, found, Option.map_some, challengeValue_params realm nonce]
    rfl
  refine ⟨_, _, sent, fun past => ?_, ?_, ?_, value⟩
  · have read := readItem_respond writable past [] (by
      rw [List.append_nil]
      exact respond_notCr writable)
    rwa [List.append_nil] at read
  · exact delivered_cseq _
  · rw [delivered]
    split <;> rfl

end

/-! ## What a client answers -/

/-- A request with the answer to a challenge, in quoted parameters of any order. -/
structure Signed (username password : CStr 255) (realm nonce : List UInt8) (request : Request)
    (answer : Answer) : Prop where
  writable : request.Writable RequestLine.Writable
  inHeader : answer.InHeader request
  user : answer.Says "username" username.text
  inRealm : answer.Says "realm" realm
  inNonce : answer.Says "nonce" nonce
  target : answer.Says "uri" request.startLine.uri
  method : request.startLine.method.length ≤ 31
  response : answer.Says "response" (rfc2617Digest username.text realm password.text nonce
    request.startLine.method request.startLine.uri)

/-- The bytes of such a request, in the pieces of an arrival. -/
def SignedArrival (username password : CStr 255) (realm nonce : List UInt8) (arrival : Arrival) :
    Prop :=
  ∃ request answer, Signed username password realm nonce request answer ∧
    arrival.chunks.flatten = request.bytes RequestLine.bytes

theorem sent_authorization {request : Request} {sent : HeaderMap} (sends : request.Sent sent) :
    sent.find headerAuthorization = request.headerMap.find headerAuthorization := by
  have added : request.addedHeaders.find? (fun header => header.key == headerAuthorization) =
      none := by
    rw [List.find?_eq_none]
    intro header member
    rw [Message.addedHeaders] at member
    rcases List.mem_append.mp member with inCSeq | inLength
    · split at inCSeq
      · exact absurd inCSeq List.not_mem_nil
      · rw [List.mem_singleton.mp inCSeq]
        exact show ¬ (headerCSeq == headerAuthorization) = true by decide
    · split at inLength
      · exact absurd inLength List.not_mem_nil
      · rw [List.mem_singleton.mp inLength]
        exact show ¬ (headerContentLength == headerAuthorization) = true by decide
  rw [sends.find, added]
  rfl

/-- Whatever stands around it, the answer of a user to the last challenge is accepted. -/
theorem signed_accepted {auth : Auth} {username password : CStr 255} {arrival : Arrival}
    (known : auth.lookup username = some password) (named : username.text ≠ [])
    (current : auth.nonce.text ≠ [])
    (signed : SignedArrival username password auth.realm.text auth.nonce.text arrival) :
    auth.accepts arrival.req = true := by
  obtain ⟨request, answer, signed, bytes⟩ := signed
  obtain ⟨sent, sends, parsed⟩ := Message.parse_bytes request signed.writable
    (requestLine_reads request.startLine signed.writable.startLine) none
  have found := arrival.found none
  rw [bytes] at found
  have same : arrival.req = { request with headerMap := sent } :=
    (Outcome.Complete.inj (found.symm.trans parsed)).2
  have correct : Correct auth { request with headerMap := sent } answer username password
      request.startLine.uri := {
    inHeader := (sent_authorization sends).trans signed.inHeader
    user := ⟨signed.user, named⟩
    realm := signed.inRealm
    current := ⟨signed.inNonce, current⟩
    uri := ⟨signed.target, signed.writable.startLine.uri_present⟩
    known := known
    method := ⟨signed.method, fun c member =>
      matched_ne (signed.writable.startLine.method c member) rfl⟩
    response := signed.response }
  rw [same]
  exact correct.accepts

section

variable {ι : Type} [DecidableEq ι]

theorem dispatchOn_accepted (w : Writer W) (controller : Controller σ) {auth : Auth}
    (raws : List (Option Raw)) (reqs : List (ι × Request))
    (accepted : ∀ i, ∀ req ∈ ofThread i reqs, auth.accepts req = true) (states : ι → σ × W) :
    dispatchOn (serveGuarded w controller) reqs (⟨some auth, raws⟩, states) =
      (dispatchOn (serveOn w controller) reqs states).map fun states =>
        (⟨some auth, raws⟩, states) := by
  induction reqs generalizing states with
  | nil => rfl
  | cons first reqs ih =>
      obtain ⟨i, req⟩ := first
      have here : auth.accepts req = true := by
        apply accepted i
        rw [ofThread_cons_own]
        exact List.mem_cons_self
      have later (j : ι) (other : Request) (member : other ∈ ofThread j reqs) :
          auth.accepts other = true := by
        apply accepted j
        by_cases own : i = j
        · rw [own, ofThread_cons_own]
          exact List.mem_cons_of_mem _ member
        · rwa [ofThread_cons_other own]
      rw [dispatchOn, dispatchOn, serveGuarded_accepted w controller here]
      cases serveOn w controller i req states with
      | error fault => rfl
      | ok next => exact ih later next

/-- As long as no request is refused the connections are served as they would be without the
guard. -/
theorem undisturbed_served (w : Writer W) (controller : Controller σ) {auth : Auth}
    (raws : List (Option Raw)) (inputs : List (ι × List UInt8)) {ctxs : ι → LibeventCtx}
    (valid : ∀ i, (ctxs i).Valid)
    (accepted : ∀ i, ∀ req ∈ (servedBy (ctxs i) (ofThread i inputs)).1, auth.accepts req = true)
    (states : ι → σ × W) :
    runConnections (serveGuarded w controller) inputs ctxs (⟨some auth, raws⟩, states) =
      (runConnections (serveOn w controller) inputs ctxs states).map fun (ctxs, states) =>
        (ctxs, ⟨some auth, raws⟩, states) := by
  obtain ⟨after, reqs, _, outcome⟩ := connections_dispatch inputs valid
  rcases outcome with ⟨_, fronts, failed⟩ | ⟨all, _, done⟩
  · have both := dispatchOn_accepted w controller raws reqs
      (fun i req member => accepted i req ((fronts i).subset member)) states
    rw [failed, failed, both]
    cases dispatchOn (serveOn w controller) reqs states <;> rfl
  · have both := dispatchOn_accepted w controller raws reqs
      (fun i req member => accepted i req (by rwa [all i])) states
    rw [done, done, both]
    cases dispatchOn (serveOn w controller) reqs states <;> rfl

/-- A client whose request is refused when its last bytes arrive reads a challenge off its
connection.  All that it sends from then on with the answer to it is handled as it would be
without the guard, whatever the other connections do, as long as none of them makes another
challenge. -/
theorem login_handled {w : Writer W} {written : W → List UInt8} (never : w.NeverFails written)
    (controller : Controller σ) {auth : Auth} {username password : CStr 255}
    (known : auth.lookup username = some password) (named : username.text ≠ [])
    (realm : LineText auth.realm.text) {old : Raw} (made : auth.nonce = generateNonce old)
    (raw : Option Raw) (raws : List (Option Raw)) {ctxs : ι → LibeventCtx}
    (valid : ∀ j, (ctxs j).Valid) (states : ι → σ × W) (i : ι) (last : List UInt8)
    (some_ : last ≠ []) (req : Request) (whole : Whole ((ctxs i).data ++ last, req))
    (refused : auth.accepts req = false)
    (quiet : ∀ ret, ∃ next, controller.after ret (states i).1 req = pure next) :
    ∃ (ctx : LibeventCtx) (next : σ) (conn : W) (bytes : List UInt8) (response : Response),
      runConnections (serveGuarded w controller) [(i, last)] ctxs
          (⟨some auth, raw :: raws⟩, states) =
        .ok (Function.update ctxs i ctx, ⟨some (auth.renew raw), raws⟩,
          Function.update states i (next, conn)) ∧
      written conn = written (states i).2 ++ bytes ∧
      (∀ past, readItem past bytes = .ok (.response response, [])) ∧
      response.cseq = req.cseq ∧ response.startLine.code = 401 ∧
      challengeOf response = some (auth.realm.text, (auth.renew raw).nonce.text) ∧
      ∀ (inputs : List (ι × List UInt8)) (arrivals : List Arrival),
        ofThread i inputs = arrivals.flatMap Arrival.chunks →
        (∀ arrival ∈ arrivals, SignedArrival username password auth.realm.text
          (auth.renew raw).nonce.text arrival) →
        (∀ j, j ≠ i → ∀ req ∈ (servedBy (ctxs j) (ofThread j inputs)).1,
          (auth.renew raw).accepts req = true) →
        runConnections (serveGuarded w controller) inputs (Function.update ctxs i ctx)
            (⟨some (auth.renew raw), raws⟩, Function.update states i (next, conn)) =
          (runConnections (serveOn w controller) inputs (Function.update ctxs i ctx)
            (Function.update states i (next, conn))).map fun (ctxs, states) =>
              (ctxs, ⟨some (auth.renew raw), raws⟩, states) := by
  obtain ⟨fresh, current⟩ : ∃ bytes, (auth.renew raw).nonce = generateNonce bytes := by
    cases raw with
    | none => exact ⟨old, made⟩
    | some raw => exact ⟨raw, rfl⟩
  have nonce : LineText (auth.renew raw).nonce.text := by
    rw [current]
    exact hex_lineText fresh.toList
  have present : (auth.renew raw).nonce.text ≠ [] := by
    rw [current]
    exact List.ne_nil_of_length_pos (by rw [nonce_length]; decide)
  have sameRealm : (auth.renew raw).realm = auth.realm := by
    cases raw <;> rfl
  have sameLookup : (auth.renew raw).lookup = auth.lookup := by
    cases raw <;> rfl
  obtain ⟨served, valid', empty'⟩ := (valid i).served_last some_ whole
  obtain ⟨next, silent⟩ :=
    quiet (challenged w (auth.renew raw) req.cseq (states i).2).ret
  obtain ⟨bytes, response, added, read, answers, code, challenge⟩ :=
    challenge_read (by rwa [sameRealm]) nonce never req.cseq (states i).2
  refine ⟨((ctxs i).reads last).2, next,
    (challenged w (auth.renew raw) req.cseq (states i).2).writer, bytes, response, ?_, added, read,
    answers, code, ?_, ?_⟩
  · rw [runConnections, (valid i).runs, served, finish_ok, dispatchAll_single,
      serveGuarded_refused w controller refused, List.head?_cons, Option.join_some,
      afterChallenge]
    dsimp only
    rw [silent]
    rfl
  · rw [challenge, sameRealm]
  · intro inputs arrivals own signed others
    apply undisturbed_served w controller raws inputs
    · intro j
      by_cases same : j = i
      · rw [same, Function.update_self]
        exact valid'
      · rw [Function.update_of_ne same]
        exact valid j
    · intro j
      by_cases same : j = i
      · rw [same, Function.update_self, own, (arrivals_served arrivals valid' empty').1]
        intro req member
        obtain ⟨arrival, among, rfl⟩ := List.mem_map.mp member
        refine signed_accepted (by rwa [sameLookup]) named present ?_
        rw [sameRealm]
        exact signed arrival among
      · rw [Function.update_of_ne same]
        exact others j same

end

/-! ## The login of one user -/

theorem Arrival.once {request : Request} (writable : request.Writable RequestLine.Writable)
    (small : (request.bytes RequestLine.bytes).length ≤ parseBufSize) :
    ∃ arrival : Arrival, arrival.chunks = [request.bytes RequestLine.bytes] := by
  have line := requestLine_reads request.startLine writable.startLine
  obtain ⟨sent, _, parsed⟩ := Message.parse_bytes request writable line none
  have present : request.bytes RequestLine.bytes ≠ [] := by
    intro empty
    have enough := line.enough
    rw [Message.bytes_layout] at empty
    rw [(List.append_eq_nil_iff.mp empty).1] at enough
    exact absurd enough (by decide)
  refine ⟨{
    chunks := [request.bytes RequestLine.bytes]
    req := { request with headerMap := sent }
    present := List.cons_ne_nil _ _
    nonempty := List.forall_mem_singleton.mpr present
    whole := ?_
    waits := ?_ }, rfl⟩
  · rw [List.flatten_singleton]
    exact ⟨small, none, parsed⟩
  · intro front back split_ some_ more
    have count := congrArg List.length split_
    rw [List.length_append, List.length_singleton] at count
    have one := List.length_pos_of_ne_nil some_
    have two := List.length_pos_of_ne_nil more
    omega

theorem admin_signed : Signed adminName adminPassword cameraRealm.text
    (generateNonce sevenRaw).text (adminRequest sevenRaw) (adminAnswer sevenRaw) where
  writable := {
    startLine := ⟨List.cons_ne_nil _ _, List.all_eq_true.mp rfl, List.cons_ne_nil _ _,
      List.all_eq_true.mp rfl⟩
    headers := by
      intro header member
      rw [List.mem_singleton.mp member]
      exact ⟨List.cons_ne_nil _ _, List.all_eq_true.mp rfl, by decide +kernel, by decide +kernel⟩
    room := by decide
    body := nofun
    size := by decide
    cseq := fun _ found => by cases found
    contentLength := fun _ found => by cases found }
  inHeader := rfl
  user := rfl
  inRealm := rfl
  inNonce := rfl
  target := rfl
  method := by decide
  response := rfl

def sampleGuard (raws : List (Option Raw)) : Guard :=
  ⟨some (cameraAuth (generateNonce sevenRaw)), raws⟩

/-- The client logs in on one of two connections; the other one is silent. -/
theorem admin_login : ∃ (arrival : Arrival) (ctx : LibeventCtx) (next : Nat)
    (bytes : List UInt8) (response : Response),
    arrival.chunks = [(adminRequest sevenRaw).bytes RequestLine.bytes] ∧
    runConnections (serveGuarded listWriter testController) [(true, optionsBytes)]
        (fun _ => .new) (sampleGuard [some sevenRaw], fun _ => (0, [])) =
      .ok (Function.update (fun _ => .new) true ctx, sampleGuard [],
        Function.update (fun _ => (0, [])) true (next, bytes)) ∧
    (∀ past, readItem past bytes = .ok (.response response, [])) ∧
    challengeOf response = some (cameraRealm.text, (generateNonce sevenRaw).text) ∧
    runConnections (serveGuarded listWriter testController)
        (arrival.chunks.map fun chunk => (true, chunk))
        (Function.update (fun _ => .new) true ctx)
        (sampleGuard [], Function.update (fun _ => (0, [])) true (next, bytes)) =
      (runConnections (serveOn listWriter testController)
        (arrival.chunks.map fun chunk => (true, chunk))
        (Function.update (fun _ => .new) true ctx)
        (Function.update (fun _ => (0, [])) true (next, bytes))).map fun (ctxs, states) =>
          (ctxs, sampleGuard [], states) := by
  obtain ⟨arrival, once⟩ := Arrival.once admin_signed.writable (by decide +kernel)
  have signed : SignedArrival adminName adminPassword cameraRealm.text
      (generateNonce sevenRaw).text arrival := by
    refine ⟨_, _, admin_signed, ?_⟩
    rw [once, List.flatten_singleton]
  have realm : LineText cameraRealm.text := by
    have each : ∀ c ∈ cameraRealm.text, Quotable c ∧ c ≠ '\r'.toUInt8 := by decide +kernel
    exact each
  have known : (cameraAuth (generateNonce sevenRaw)).lookup adminName = some adminPassword := rfl
  obtain ⟨ctx, next, conn, bytes, response, ran, added, read, _, _, challenge, later⟩ :=
    login_handled listWriter_neverFails testController known (by decide) realm rfl (some sevenRaw)
      [] (fun _ => LibeventCtx.new_valid) (fun _ : Bool => (0, [])) true optionsBytes (by decide)
      optionsRequest optionsBytes_whole rfl (fun _ => ⟨1, rfl⟩)
  obtain rfl : conn = bytes := added
  refine ⟨arrival, ctx, next, conn, response, once, ran, read, challenge, ?_⟩
  refine later _ [arrival] ?_ (List.forall_mem_singleton.mpr signed) ?_
  · rw [MutualExclusion.ofThread_own, List.flatMap_singleton]
  · intro j other req member
    rw [MutualExclusion.ofThread_other (Ne.symm other)] at member
    exact absurd member List.not_mem_nil

end Compy.Connection
