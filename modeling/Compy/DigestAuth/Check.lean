import Mathlib.Data.List.GetD
import Compy.Library.ConstantTime
import Compy.DigestAuth.Digest
import Compy.Rtsp.Context
import Compy.Rtsp.HeaderCase

/-!
# The authentication check

`auth.c` from `Compy_Auth` on.  A password or a nonce is read as a string once it is in its
array, so the lookup gives a string of at most 255 bytes.
-/

set_option autoImplicit false

namespace Compy.DigestAuth

open Compy.Rtsp ConstantTime

abbrev Raw := Vector UInt8 16

/-- The nonce made of the random bytes. -/
def generateNonce (raw : Raw) : CStr 32 where
  text := hex raw.toList
  fits := by rw [hex_length, Vector.length_toList]
  noNul c member := (hex_quotable raw.toList c member).1

structure Auth where
  realm : CStr 127
  nonce : CStr 32
  lookup : CStr 255 → Option (CStr 255)

/-- The random bytes are missing when neither source of them has answered. -/
def Auth.new (realm : List UInt8) (lookup : CStr 255 → Option (CStr 255)) :
    Option Raw → Option Auth
  | none => none
  | some raw => some { realm := .copy _ realm, nonce := generateNonce raw, lookup := lookup }

def headerAuthorization : List UInt8 := charSlice "Authorization"

def headerWwwAuthenticate : List UInt8 := charSlice "WWW-Authenticate"

def digestPrefix : List UInt8 := charSlice "Digest "

def diff (expected response : List UInt8) : UInt8 :=
  (List.range 32).foldl (fun diff i => diff ||| (expected.getD i 0 ^^^ response.getD i 0)) 0

def headerParams (req : Request) : List (List UInt8 × List UInt8) :=
  match req.headerMap.find headerAuthorization with
  | none => []
  | some authValue => digestParams (CStr.copy 1023 (authValue.drop digestPrefix.length)).text

namespace Auth

/-- The buffers behind the loop, if the header begins as a digest does. -/
def params (req : Request) : Option Params :=
  match req.headerMap.find headerAuthorization with
  | none => none
  | some authValue =>
      if authValue.length < digestPrefix.length ∨
          (authValue.take digestPrefix.length).map toLower ≠ digestPrefix.map toLower then none
      else some (Params.parse (authValue.drop digestPrefix.length))

/-- The part of `compy_auth_check` between the header and the label `challenge`. -/
def accepts (self : Auth) (req : Request) : Bool :=
  match params req with
  | none => false
  | some { username, realm, nonce, uri, response } =>
      if username.text = [] ∨ nonce.text = [] ∨ uri.text = [] ∨ response.text = [] then false
      else if realm.text ≠ self.realm.text then false
      else if nonce.text ≠ self.nonce.text then false
      else
        match self.lookup username with
        | none => false
        | some password =>
            let method : CStr 31 := .copy _ req.startLine.method
            let expected := digestResponse username.text self.realm.text password.text nonce.text
              method.text uri.text
            diff expected response.text == 0

/-- The nonce stays when no random bytes can be had. -/
def renew (self : Auth) : Option Raw → Auth
  | none => self
  | some raw => { self with nonce := generateNonce raw }

def challengeValue (self : Auth) : List UInt8 :=
  charSlice "Digest realm=\"" ++ self.realm.text ++ charSlice "\", nonce=\"" ++ self.nonce.text ++
    charSlice "\""

/-- The response to a request that is not accepted. -/
def challenge (self : Auth) (ctx : Context)
    (room : ctx.headerMap.headers.length < headerMapCapacity) : Response :=
  (ctx.header headerWwwAuthenticate self.challengeValue room).respond 401
    (charSlice "Unauthorized")

/-- The result, the state behind the call and the response if there is one. -/
def check (self : Auth) (ctx : Context) (room : ctx.headerMap.headers.length < headerMapCapacity)
    (req : Request) (raw : Option Raw) : Int × Auth × Option Response :=
  if self.accepts req then (0, self, none)
  else (-1, self.renew raw, some ((self.renew raw).challenge ctx room))

end Auth

/-! ## What is accepted -/

theorem diff_eq_zero {expected response : List UInt8} (size : expected.length = 32)
    (noNul : ∀ c ∈ expected, c ≠ 0) (fits : response.length ≤ 32) :
    diff expected response = 0 ↔ response = expected := by
  rw [diff, foldl_or_eq_zero]
  constructor
  · intro same
    have place (i : Nat) (inside : i < 32) : expected.getD i 0 = response.getD i 0 :=
      UInt8.xor_eq_zero_iff.mp (same.2 i (List.mem_range.mpr inside))
    have long : response.length = 32 := by
      by_contra short
      have last := place response.length (by omega)
      rw [List.getD_eq_getElem _ _ (by omega), List.getD_eq_default _ _ (Nat.le_refl _)] at last
      exact noNul _ (List.getElem_mem _) last
    apply List.ext_getElem (by omega)
    intro i left right
    have here := place i (by omega)
    rw [List.getD_eq_getElem _ _ right, List.getD_eq_getElem _ _ left] at here
    exact here.symm
  · rintro rfl
    exact ⟨rfl, fun i _ => UInt8.xor_self⟩

namespace Auth

variable (auth : Auth) (req : Request)

/-- What the header's parameters are when the request is accepted. -/
structure Credentials (params : Params) (password : CStr 255) : Prop where
  username : params.username.text ≠ []
  uri : params.uri.text ≠ []
  realm : params.realm.text = auth.realm.text
  nonce : params.nonce.text = auth.nonce.text ∧ params.nonce.text ≠ []
  known : auth.lookup params.username = some password
  response : params.response.text = rfc2617Digest params.username.text auth.realm.text
    password.text params.nonce.text (CStr.copy 31 req.startLine.method).text params.uri.text

theorem params_some {req : Request} {params : Params} (read : Auth.params req = some params) :
    params = (headerParams req).foldl Params.store .empty := by
  rw [Auth.params] at read
  rw [headerParams]
  split at read
  · cases read
  · rename_i found
    split at read
    · cases read
    · cases read
      rfl

theorem accepts_iff : auth.accepts req = true ↔ ∃ params password,
    Auth.params req = some params ∧ auth.Credentials req params password := by
  rw [accepts]
  cases read : Auth.params req with
  | none => simp
  | some params =>
      have expected (password : CStr 255) :=
        digestResponse_eq params.username auth.realm password params.nonce
          (.copy 31 req.startLine.method) params.uri
      have exact (password : CStr 255) := @diff_eq_zero (rfc2617Digest params.username.text
        auth.realm.text password.text params.nonce.text (CStr.copy 31 req.startLine.method).text
        params.uri.text) params.response.text (md5Hex_length _)
        (fun c member => (hex_quotable _ c member).1) params.response.fits
      constructor
      · intro accepted
        simp only at accepted
        split at accepted
        · cases accepted
        rename_i present
        split at accepted
        · cases accepted
        rename_i realm
        split at accepted
        · cases accepted
        rename_i nonce
        split at accepted
        · cases accepted
        rename_i password known
        rw [expected, beq_iff_eq, exact] at accepted
        push Not at present realm nonce
        exact ⟨params, password, rfl, present.1, present.2.2.1, realm, ⟨nonce, present.2.1⟩, known,
          accepted⟩
      · rintro ⟨_, password, ⟨⟩, credentials⟩
        have present : params.response.text ≠ [] := by
          rw [credentials.response]
          intro empty
          have size := congrArg List.length empty
          rw [rfc2617Digest, md5Hex_length] at size
          cases size
        simp only
        rw [if_neg, if_neg (not_not.mpr credentials.realm),
          if_neg (not_not.mpr credentials.nonce.1), credentials.known]
        · simp only
          rw [expected, beq_iff_eq, exact]
          exact credentials.response
        · simp [credentials.username, credentials.uri, credentials.nonce.2, present]

theorem check_zero_iff (ctx : Context) (room : ctx.headerMap.headers.length < headerMapCapacity)
    (raw : Option Raw) : (auth.check ctx room req raw).1 = 0 ↔ auth.accepts req = true := by
  rw [check]
  split
  · rename_i accepted
    exact iff_of_true rfl accepted
  · rename_i refused
    exact iff_of_false (by simp) refused

end Auth

end Compy.DigestAuth
