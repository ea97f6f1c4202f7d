import Compy.Rtsp.Numbers
import Compy.DigestAuth.Answers

/-!
# What an accepted request has proved

The digest covers the name and the method as they fit in their arrays and the URI that the
header names, not the ones that the client claims and the start line has.
-/

set_option autoImplicit false

namespace Compy.DigestAuth

open Compy.Rtsp IncrementalParsing

/-- The value of the last parameter with the key in what is read of the header. -/
def parameter (req : Request) (key : String) : List UInt8 := lastValue (headerParams req) key

/-- The lookup has the password for this name, which has to be a string that it can be given. -/
def Gives (auth : Auth) (name : List UInt8) (password : CStr 255) : Prop :=
  ∃ username : CStr 255, username.text = name ∧ auth.lookup username = some password

def responseText (auth : Auth) (username password method : List UInt8) : List UInt8 :=
  md5Hex (username ++ colon ++ auth.realm.text ++ colon ++ password) ++ colon ++ auth.nonce.text ++
    colon ++ md5Hex method

/-- The response is the digest for the claimed name and the method and the URI in the start
line. -/
def OwnDigest (auth : Auth) (req : Request) : Prop :=
  ∃ password, Gives auth (parameter req "username") password ∧
    (parameter req "response").take 32 = rfc2617Digest (parameter req "username") auth.realm.text
      password.text auth.nonce.text req.startLine.method req.startLine.uri

/-- The method and the URI that the expected digest is made of. -/
def digestedText (req : Request) : List UInt8 :=
  (CStr.copy 31 req.startLine.method).text ++ colon ++ parameter req "uri"

def ownText (req : Request) : List UInt8 :=
  req.startLine.method ++ colon ++ req.startLine.uri

def Collide (left right : List UInt8) : Prop := left ≠ right ∧ md5Hex left = md5Hex right

/-- MD5 has the same digest for two texts that the responses are made of. -/
def Md5Collision (auth : Auth) (req : Request) : Prop :=
  Collide (digestedText req) (ownText req) ∨
    ∃ password, Gives auth (parameter req "username") password ∧
      Collide (responseText auth (parameter req "username") password.text (digestedText req))
        (responseText auth (parameter req "username") password.text (ownText req))

theorem parameter_fits (req : Request) (key : String) :
    (parameter req key).length < valueMax ∧ ∀ c ∈ parameter req key, c ≠ 0 := by
  rw [parameter, headerParams]
  split
  · exact ⟨show 0 < valueMax by decide, fun c member => absurd member List.not_mem_nil⟩
  · exact lastValue_fits (CStr.noNul _) key

theorem Gives.lookup {auth : Auth} {req : Request} {password : CStr 255}
    (gives : Gives auth (parameter req "username") password) :
    auth.lookup (.copy _ (parameter req "username")) = some password := by
  obtain ⟨username, text, known⟩ := gives
  have whole : CStr.copy 255 (parameter req "username") = username := by
    apply CStr.ext_text
    rw [← text]
    exact CStr.copy_text username.fits username.noNul
  rw [whole]
  exact known

theorem accepted_response {auth : Auth} {req : Request} (accepted : auth.accepts req = true) :
    ∃ password, auth.lookup (.copy _ (parameter req "username")) = some password ∧
      (parameter req "response").take 32 =
        md5Hex (responseText auth ((parameter req "username").take 255) password.text
          (digestedText req)) := by
  obtain ⟨params, password, read, credentials⟩ := (auth.accepts_iff req).mp accepted
  have made := Auth.params_some read
  rw [Params.stored] at made
  have username : params.username = .copy _ (parameter req "username") :=
    congrArg Params.username made
  have response : params.response.text = (parameter req "response").take 32 := by
    rw [made]
    exact CStr.copy_text_take (parameter_fits req _).2
  have uri : params.uri.text = parameter req "uri" := by
    rw [made]
    have fits := parameter_fits req "uri"
    exact CStr.copy_text (Nat.le_of_lt_succ fits.1) fits.2
  have own := credentials.response
  rw [response, username, uri, credentials.nonce.1,
    CStr.copy_text_take (parameter_fits req "username").2] at own
  exact ⟨password, username ▸ credentials.known, own⟩

theorem parsed_method {past : Option UInt8} {input : List UInt8} {offset : Nat} {req : Request}
    (parsed : Request.parse past input = .Complete offset req) :
    ∀ c ∈ req.startLine.method, identMatcher c = true := by
  obtain ⟨_, rest, _, _, _, _, line, _⟩ := message_parts parsed
  obtain ⟨_, _, _, word, _⟩ := requestLine_complete line
  obtain ⟨_, _, _, _, ident, _⟩ := (bind_eq_complete _ _ past rest _ _).mp word
  obtain ⟨until_, _⟩ := matchSome_complete .Ident identMatcher past _ _ _ ident
  obtain ⟨_, all, _⟩ := matchUntil_complete identMatcher past _ _ _ until_
  exact all

theorem colon_split {front front' back back' : List UInt8}
    (plain : ∀ c ∈ front, (c != ':'.toUInt8) = true)
    (plain' : ∀ c ∈ front', (c != ':'.toUInt8) = true) :
    front ++ colon ++ back = front' ++ colon ++ back' ↔ front = front' ∧ back = back' := by
  have layout (left right : List UInt8) : left ++ colon ++ right = left ++ ':'.toUInt8 :: right :=
    List.append_assoc _ _ _
  rw [layout, layout]
  constructor
  · intro same
    have fronts := congrArg (List.takeWhile (· != ':'.toUInt8)) same
    rw [takeWhile_stops plain rfl, takeWhile_stops plain' rfl] at fronts
    rw [fronts, List.append_right_inj, List.cons_inj_right] at same
    exact ⟨fronts, same⟩
  · rintro ⟨rfl, rfl⟩
    rfl

/-- A parsed request has its own text digested exactly when its method fits and the header
names its URI. -/
theorem digestedText_parsed {past : Option UInt8} {input : List UInt8} {offset : Nat}
    {req : Request} (parsed : Request.parse past input = .Complete offset req) :
    digestedText req = ownText req ↔
      req.startLine.method.length ≤ 31 ∧ parameter req "uri" = req.startLine.uri := by
  have chars := parsed_method parsed
  have noNul (c : UInt8) (member : c ∈ req.startLine.method) : c ≠ 0 :=
    matched_ne (chars c member) rfl
  have noColon (c : UInt8) (member : c ∈ req.startLine.method) : (c != ':'.toUInt8) = true :=
    bne_iff_ne.mpr (matched_ne (chars c member) rfl)
  rw [digestedText, ownText, CStr.copy_text_take noNul,
    colon_split (fun c member => noColon c (List.mem_of_mem_take member)) noColon,
    List.take_eq_self_iff]

def redirected (raw : Raw) (uri : String) : Request :=
  { adminRequest raw with
    startLine := { (adminRequest raw).startLine with uri := charSlice uri } }

def zeroRaw : Raw := Vector.replicate 16 0

theorem redirected_accepted (raw : Raw) (uri : String) (ctx : Context)
    (room : ctx.headerMap.headers.length < headerMapCapacity) (other : Option Raw) :
    ((cameraAuth (generateNonce raw)).check ctx room (redirected raw uri) other).1 = 0 := by
  rw [Auth.check_zero_iff]
  exact ((admin_answers (generateNonce raw) raw).accepts_iff).mpr rfl

end Compy.DigestAuth
