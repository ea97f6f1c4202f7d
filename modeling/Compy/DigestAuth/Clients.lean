import Compy.DigestAuth.Answers

/-!
# Clients that share a nonce

Requests of any clients in any order on one `Compy_Auth`.  Every challenge puts a new nonce
in place of the one that all clients have been given so far.
-/

set_option autoImplicit false

namespace Compy.DigestAuth

open Compy.Rtsp

variable {Client : Type}

/-- A call of `compy_auth_check` for a client, with the random bytes for a new nonce. -/
structure Visit (Client : Type) where
  client : Client
  ctx : Context
  room : ctx.headerMap.headers.length < headerMapCapacity
  req : Request
  raw : Raw

namespace Auth

def visit (self : Auth) (visit : Visit Client) : Int × Auth × Option Response :=
  self.check visit.ctx visit.room visit.req (some visit.raw)

def after (self : Auth) (visits : List (Visit Client)) : Auth :=
  visits.foldl (fun auth visit => (auth.visit visit).2.1) self

/-- The challenges sent in a run, each with its client and its nonce. -/
def challenges : Auth → List (Visit Client) → List (Client × CStr 32)
  | _, [] => []
  | self, visit :: visits =>
      let next := (self.visit visit).2.1
      (if self.accepts visit.req then [] else [(visit.client, next.nonce)]) ++
        next.challenges visits

/-- The nonce of the last challenge that the run has sent to the client. -/
def lastChallenge [DecidableEq Client] (self : Auth) (visits : List (Visit Client))
    (client : Client) : Option (CStr 32) :=
  (((self.challenges visits).filter fun sent => sent.1 = client).getLast?).map Prod.snd

/-- The nonce of the last challenge that the run has sent to anyone. -/
def latestChallenge (self : Auth) (visits : List (Visit Client)) : Option (CStr 32) :=
  ((self.challenges visits).getLast?).map Prod.snd

/-! ## One request -/

theorem visit_accepted {self : Auth} {visit : Visit Client}
    (accepted : self.accepts visit.req = true) : self.visit visit = (0, self, none) :=
  if_pos accepted

theorem visit_refused {self : Auth} {visit : Visit Client}
    (refused : ¬ self.accepts visit.req = true) :
    self.visit visit = (-1, self.renew (some visit.raw),
      some ((self.renew (some visit.raw)).challenge visit.ctx visit.room)) :=
  if_neg refused

/-! ## Runs -/

/-- The current nonce is the one that was sent last. -/
theorem after_nonce (self : Auth) (visits : List (Visit Client)) :
    (self.after visits).nonce = (self.latestChallenge visits).getD self.nonce := by
  induction visits generalizing self with
  | nil => rfl
  | cons visit visits ih =>
      have step := ih (self.visit visit).2.1
      rw [latestChallenge] at step ⊢
      rw [after, List.foldl_cons, ← after, step, challenges]
      -- A refused request sends the nonce that the rest of the run starts from.
      by_cases accepted : self.accepts visit.req = true
      · rw [if_pos accepted, List.nil_append, visit_accepted accepted]
      · rw [if_neg accepted, List.singleton_append, List.getLast?_cons]
        cases ((self.visit visit).2.1.challenges visits).getLast? <;> rfl

theorem lastChallenge_sent [DecidableEq Client] {self : Auth} {visits : List (Visit Client)}
    {client : Client} {nonce : CStr 32}
    (last : self.lastChallenge visits client = some nonce) :
    (client, nonce) ∈ self.challenges visits := by
  obtain ⟨⟨other, sent⟩, here, rfl⟩ := Option.map_eq_some_iff.mp last
  obtain ⟨among, same⟩ := List.mem_filter.mp (List.mem_of_getLast? here)
  rw [decide_eq_true_eq] at same
  exact same ▸ among

/-- In every run, a client that answers the last challenge sent to it correctly is accepted
exactly when the last challenge sent to anyone has the same nonce. -/
theorem answer_accepted_iff [DecidableEq Client] (auth : Auth) (before : List (Visit Client))
    (visit : Visit Client) (nonce : CStr 32) (answer : Answer) (username password : CStr 255)
    (last : auth.lastChallenge before visit.client = some nonce)
    (answers : Answers (auth.after before) nonce visit.req answer username password) :
    ((auth.after before).visit visit).1 = 0 ↔ auth.latestChallenge before = some nonce := by
  rw [Auth.visit, check_zero_iff, answers.accepts_iff, after_nonce]
  cases latest : auth.latestChallenge before with
  | none =>
      have sent := lastChallenge_sent last
      rw [latestChallenge, Option.map_eq_none_iff, List.getLast?_eq_none_iff] at latest
      rw [latest] at sent
      cases sent
  | some current =>
      rw [Option.getD_some, Option.some_inj]
      exact ⟨fun same => (CStr.ext_text same).symm, fun same => congrArg CStr.text same.symm⟩

end Auth

/-! ## Two clients -/

def freshVisit (client : String) (req : Request) (raw : Raw) : Visit String where
  client := client
  ctx := .new 1
  room := by decide
  req := req
  raw := raw

def plainRequest : Request :=
  { adminRequest (Vector.replicate 16 0) with headerMap := .empty, cseq := 1 }

def oneRaw : Raw := Vector.replicate 16 1

def otherRaw : Raw := Vector.replicate 16 2

/-- One client, alone. -/
theorem single_accepted :
    (((cameraAuth (generateNonce oneRaw)).after [freshVisit "viewer" plainRequest oneRaw]).visit
        (freshVisit "viewer" (adminRequest oneRaw) otherRaw)).1 = 0 ↔
      (cameraAuth (generateNonce oneRaw)).latestChallenge
        [freshVisit "viewer" plainRequest oneRaw] = some (generateNonce oneRaw) :=
  Auth.answer_accepted_iff _ [freshVisit "viewer" plainRequest oneRaw]
    (freshVisit "viewer" (adminRequest oneRaw) otherRaw) (generateNonce oneRaw)
    (adminAnswer oneRaw) adminName adminPassword rfl (admin_answers _ oneRaw)

def interrupted : List (Visit String) :=
  [freshVisit "viewer" plainRequest oneRaw, freshVisit "other" plainRequest otherRaw]

/-- The answer to the last challenge that the viewer was sent is refused. -/
theorem interrupted_refused :
    (cameraAuth (generateNonce oneRaw)).lastChallenge interrupted "viewer" =
        some (generateNonce oneRaw) ∧
      Answers ((cameraAuth (generateNonce oneRaw)).after interrupted) (generateNonce oneRaw)
        (adminRequest oneRaw) (adminAnswer oneRaw) adminName adminPassword ∧
      (((cameraAuth (generateNonce oneRaw)).after interrupted).visit
        (freshVisit "viewer" (adminRequest oneRaw) oneRaw)).1 = -1 := by
  have answers : Answers ((cameraAuth (generateNonce oneRaw)).after interrupted)
      (generateNonce oneRaw) (adminRequest oneRaw) (adminAnswer oneRaw) adminName adminPassword :=
    admin_answers (generateNonce otherRaw) oneRaw
  refine ⟨rfl, answers, ?_⟩
  have current : ((cameraAuth (generateNonce oneRaw)).after interrupted).nonce =
      generateNonce otherRaw := rfl
  rw [Auth.visit_refused]
  intro accepted
  have same := answers.accepts_iff.mp accepted
  rw [current] at same
  exact absurd same (by decide)

end Compy.DigestAuth
