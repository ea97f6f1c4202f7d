import Compy.DigestAuth.Check

/-!
# Answers to a challenge

Headers as clients write them: quoted parameters in any order, with separators and other
parameters between them.  The tokenizer gives back the keys and values that were written.
-/

set_option autoImplicit false

namespace Compy.DigestAuth

open Compy.Rtsp

def keyChar (c : UInt8) : Bool := identMatcher c || c == '-'.toUInt8

structure Piece where
  gap : List UInt8
  key : List UInt8
  value : List UInt8
  separators : ∀ c ∈ gap, isSeparator c = true
  name : key.length < keyMax ∧ ∀ c ∈ key, keyChar c = true
  quoted : value.length < valueMax ∧ ∀ c ∈ value, Quotable c

namespace Piece

def bytes (self : Piece) : List UInt8 :=
  self.gap ++ (self.key ++ ('='.toUInt8 :: '"'.toUInt8 :: (self.value ++ ['"'.toUInt8])))

def param (self : Piece) : List UInt8 × List UInt8 := (self.key, self.value)

end Piece

theorem takeWhile_stops {matcher : UInt8 → Bool} {front : List UInt8} {c : UInt8}
    (all : ∀ other ∈ front, matcher other = true) (stop : matcher c = false)
    (rest : List UInt8) : (front ++ c :: rest).takeWhile matcher = front := by
  rw [List.takeWhile_append_of_pos all, List.takeWhile_cons, stop]
  exact List.append_nil front

theorem keyChar_isSeparator {c : UInt8} (char : keyChar c = true) : isSeparator c = false := by
  have space : c ≠ ' '.toUInt8 := matched_ne char rfl
  have comma : c ≠ ','.toUInt8 := matched_ne char rfl
  have tab : c ≠ '\t'.toUInt8 := matched_ne char rfl
  simp [isSeparator, space, comma, tab]

theorem dropWhile_separators {gap key : List UInt8}
    (separators : ∀ c ∈ gap, isSeparator c = true) (chars : ∀ c ∈ key, keyChar c = true)
    (rest : List UInt8) :
    (gap ++ (key ++ '='.toUInt8 :: rest)).dropWhile isSeparator = key ++ '='.toUInt8 :: rest := by
  rw [List.dropWhile_append_of_pos separators]
  cases key with
  | nil => rfl
  | cons c key =>
      rw [List.cons_append, List.dropWhile_cons, keyChar_isSeparator (chars c List.mem_cons_self)]
      rfl

theorem parseDigestParam_piece (piece : Piece) (rest : List UInt8) :
    parseDigestParam keyMax valueMax (piece.bytes ++ rest) = some (piece.param, rest) := by
  have chars (c : UInt8) (member : c ∈ piece.key) : (c != '='.toUInt8) = true :=
    bne_iff_ne.mpr (matched_ne (piece.name.2 c member) rfl)
  have inside (c : UInt8) (member : c ∈ piece.value) : (!endsValue true c) = true := by
    simp [endsValue, (piece.quoted.2 c member).2]
  have layout : piece.bytes ++ rest = piece.gap ++ (piece.key ++ '='.toUInt8 ::
      ('"'.toUInt8 :: (piece.value ++ '"'.toUInt8 :: rest))) := by
    simp only [Piece.bytes, List.append_assoc, List.cons_append, List.nil_append]
  have key : (piece.key ++ '='.toUInt8 :: ('"'.toUInt8 :: (piece.value ++ '"'.toUInt8 ::
      rest))).takeWhile (· != '='.toUInt8) = piece.key := takeWhile_stops chars rfl _
  have value : (piece.value ++ '"'.toUInt8 :: rest).takeWhile (!endsValue true ·) = piece.value :=
    takeWhile_stops inside rfl _
  rw [layout, parseDigestParam, dropWhile_separators piece.separators piece.name.2]
  have present : piece.key ++ '='.toUInt8 :: ('"'.toUInt8 :: (piece.value ++ '"'.toUInt8 ::
      rest)) ≠ [] := List.append_ne_nil_of_right_ne_nil _ (List.cons_ne_nil _ _)
  simp only [present, if_false, key, List.take_of_length_le (Nat.le_sub_one_of_lt piece.name.1),
    List.drop_left]
  simp [value, List.take_of_length_le (Nat.le_sub_one_of_lt piece.quoted.1), Piece.param]

theorem digestParams_pieces (pieces : List Piece) {tail : List UInt8}
    (blank : ∀ c ∈ tail, isSeparator c = true) :
    digestParams (pieces.flatMap Piece.bytes ++ tail) = pieces.map Piece.param := by
  induction pieces with
  | nil =>
      apply digestParams_none
      rw [List.flatMap_nil, List.nil_append, parseDigestParam, List.dropWhile_eq_nil_iff.mpr blank]
      rfl
  | cons piece pieces ih =>
      rw [List.flatMap_cons, List.append_assoc, digestParams_some (parseDigestParam_piece piece _),
        ih, List.map_cons]

theorem keyChar_ne_zero {c : UInt8} (char : keyChar c = true) : c ≠ 0 := matched_ne char rfl

theorem isSeparator_ne_zero {c : UInt8} (separator : isSeparator c = true) : c ≠ 0 :=
  matched_ne separator rfl

theorem Piece.noNul (piece : Piece) : ∀ c ∈ piece.bytes, c ≠ 0 := by
  intro c member
  simp only [Piece.bytes, List.mem_append, List.mem_cons, List.not_mem_nil, or_false] at member
  rcases member with inGap | inKey | rfl | rfl | inValue | rfl
  · exact isSeparator_ne_zero (piece.separators c inGap)
  · exact keyChar_ne_zero (piece.name.2 c inKey)
  · decide
  · decide
  · exact (piece.quoted.2 c inValue).1
  · decide

/-- What stands behind `Digest ` in a header that fits its array. -/
structure Answer where
  pieces : List Piece
  tail : List UInt8
  blank : ∀ c ∈ tail, isSeparator c = true
  fits : (pieces.flatMap Piece.bytes ++ tail).length ≤ 1023

namespace Answer

variable (self : Answer)

def text : List UInt8 := self.pieces.flatMap Piece.bytes ++ self.tail

/-- The key stands in the header once, and with the value. -/
def Says (key : String) (value : List UInt8) : Prop :=
  (self.pieces.filter fun piece => piece.key == charSlice key).map Piece.value = [value]

def InHeader (req : Request) : Prop :=
  req.headerMap.find headerAuthorization = some (digestPrefix ++ self.text)

theorem noNul : ∀ c ∈ self.text, c ≠ 0 := by
  intro c member
  rcases List.mem_append.mp member with inPieces | inTail
  · obtain ⟨piece, _, inPiece⟩ := List.mem_flatMap.mp inPieces
    exact piece.noNul c inPiece
  · exact isSeparator_ne_zero (self.blank c inTail)

variable {self} {req : Request}

theorem InHeader.headerParams (inHeader : self.InHeader req) :
    headerParams req = self.pieces.map Piece.param := by
  rw [DigestAuth.headerParams, inHeader]
  dsimp only
  have whole : (CStr.copy 1023 self.text).text = self.text := CStr.copy_text self.fits self.noNul
  rw [List.drop_left, whole]
  exact digestParams_pieces self.pieces self.blank

theorem InHeader.params (inHeader : self.InHeader req) :
    Auth.params req = some ((self.pieces.map Piece.param).foldl Params.store .empty) := by
  have read := inHeader.headerParams
  rw [DigestAuth.headerParams, inHeader] at read
  rw [Auth.params, inHeader]
  dsimp only at read ⊢
  rw [List.take_left, if_neg, Params.parse, read]
  simp

theorem Says.lastValue {key : String} {value : List UInt8} (said : self.Says key value) :
    lastValue (self.pieces.map Piece.param) key = value := by
  rw [DigestAuth.lastValue, List.filter_map, List.getLast?_map, Option.map_map]
  have last := congrArg List.getLast? said
  rw [List.getLast?_map] at last
  rw [show Prod.snd ∘ Piece.param = Piece.value from rfl]
  exact congrArg (Option.getD · []) last

theorem Says.quoted {key : String} {value : List UInt8} (said : self.Says key value) :
    value.length < valueMax ∧ ∀ c ∈ value, Quotable c := by
  have member : value ∈ (self.pieces.filter fun piece => piece.key == charSlice key).map
      Piece.value := by
    rw [said]
    exact List.mem_singleton_self value
  obtain ⟨piece, _, rfl⟩ := List.mem_map.mp member
  exact piece.quoted

theorem Says.copy {max : Nat} {key : String} {text : CStr max} (said : self.Says key text.text) :
    CStr.copy max (DigestAuth.lastValue (self.pieces.map Piece.param) key) = text := by
  rw [said.lastValue]
  exact CStr.ext_text (CStr.copy_text text.fits text.noNul)

end Answer

/-! ## Correct answers -/

/-- The header has the five parameters once each, the nonce is the current one, and the response
is the digest for the method of the request and the URI in the header. -/
structure Correct (auth : Auth) (req : Request) (answer : Answer) (username password : CStr 255)
    (target : List UInt8) : Prop where
  inHeader : answer.InHeader req
  user : answer.Says "username" username.text ∧ username.text ≠ []
  realm : answer.Says "realm" auth.realm.text
  current : answer.Says "nonce" auth.nonce.text ∧ auth.nonce.text ≠ []
  uri : answer.Says "uri" target ∧ target ≠ []
  known : auth.lookup username = some password
  method : req.startLine.method.length ≤ 31 ∧ ∀ c ∈ req.startLine.method, c ≠ 0
  response : answer.Says "response" (rfc2617Digest username.text auth.realm.text password.text
    auth.nonce.text req.startLine.method target)

theorem Correct.accepts {auth : Auth} {req : Request} {answer : Answer}
    {username password : CStr 255} {target : List UInt8}
    (correct : Correct auth req answer username password target) : auth.accepts req = true := by
  have uriFits := correct.uri.1.quoted
  have uriText : (CStr.copy 511 (lastValue (answer.pieces.map Piece.param) "uri")).text =
      target := by
    rw [correct.uri.1.lastValue]
    exact CStr.copy_text (Nat.le_of_lt_succ uriFits.1) fun c member => (uriFits.2 c member).1
  have response : (CStr.copy 32 (lastValue (answer.pieces.map Piece.param) "response")).text =
      rfc2617Digest username.text auth.realm.text password.text auth.nonce.text
        req.startLine.method target := by
    rw [correct.response.lastValue]
    apply CStr.copy_text (Nat.le_of_eq (md5Hex_length _))
    exact fun c member => (hex_quotable _ c member).1
  have method : (CStr.copy 31 req.startLine.method).text = req.startLine.method :=
    CStr.copy_text correct.method.1 correct.method.2
  rw [Auth.accepts_iff, correct.inHeader.params, Params.stored, correct.user.1.copy,
    correct.realm.copy, correct.current.1.copy]
  refine ⟨_, password, rfl, correct.user.2, ?_, rfl, ⟨rfl, correct.current.2⟩, correct.known, ?_⟩
  · rw [uriText]
    exact correct.uri.2
  · rw [uriText, method]
    exact response

/-- The request answers a challenge with the nonce: its header has the five parameters once
each, and the response is the digest for the request. -/
structure Answers (auth : Auth) (nonce : CStr 32) (req : Request) (answer : Answer)
    (username : CStr 255) (password : CStr 255) : Prop where
  inHeader : answer.InHeader req
  user : answer.Says "username" username.text ∧ username.text ≠ []
  realm : answer.Says "realm" auth.realm.text
  challenge : answer.Says "nonce" nonce.text ∧ nonce.text ≠ []
  uri : answer.Says "uri" req.startLine.uri ∧ req.startLine.uri ≠ []
  known : auth.lookup username = some password
  method : req.startLine.method.length ≤ 31 ∧ ∀ c ∈ req.startLine.method, c ≠ 0
  response : answer.Says "response" (rfc2617Digest username.text auth.realm.text password.text
    nonce.text req.startLine.method req.startLine.uri)

theorem Answers.correct {auth : Auth} {nonce : CStr 32} {req : Request} {answer : Answer}
    {username password : CStr 255} (answers : Answers auth nonce req answer username password)
    (same : nonce.text = auth.nonce.text) :
    Correct auth req answer username password req.startLine.uri where
  inHeader := answers.inHeader
  user := answers.user
  realm := answers.realm
  current := by
    rw [← same]
    exact answers.challenge
  uri := answers.uri
  known := answers.known
  method := answers.method
  response := by
    rw [← same]
    exact answers.response

/-- A correct answer is accepted exactly when its nonce is the current one. -/
theorem Answers.accepts_iff {auth : Auth} {nonce : CStr 32} {req : Request} {answer : Answer}
    {username password : CStr 255} (answers : Answers auth nonce req answer username password) :
    auth.accepts req = true ↔ nonce.text = auth.nonce.text := by
  constructor
  · intro accepted
    obtain ⟨params, _, read, credentials⟩ := (auth.accepts_iff req).mp accepted
    rw [answers.inHeader.params, Params.stored, answers.challenge.1.copy] at read
    cases read
    exact credentials.nonce.1
  · intro same
    exact (answers.correct same).accepts

/-- The loop reads what was written and stops behind it, and the answer is accepted. -/
theorem correct_accepted {auth : Auth} {req : Request} {answer : Answer}
    {username password : CStr 255} {target : List UInt8}
    (correct : Correct auth req answer username password target) :
    headerParams req = answer.pieces.map Piece.param ∧ auth.accepts req = true ∧
      ∀ ctx room raw, auth.check ctx room req raw = (0, auth, none) :=
  ⟨correct.inHeader.headerParams, correct.accepts, fun _ _ _ => if_pos correct.accepts⟩

/-! ## The answer of one user -/

def Piece.next (key : String) (value : List UInt8)
    (name : (charSlice key).length < keyMax ∧ ∀ c ∈ charSlice key, keyChar c = true)
    (quoted : value.length < valueMax ∧ ∀ c ∈ value, Quotable c) : Piece where
  gap := charSlice ", "
  key := charSlice key
  value := value
  separators := List.all_eq_true.mp rfl
  name := name
  quoted := quoted

def adminName : CStr 255 := .copy _ (charSlice "admin")

def adminPassword : CStr 255 := .copy _ (charSlice "secret")

def cameraRealm : CStr 127 := .copy _ (charSlice "IP Camera")

def cameraAuth (nonce : CStr 32) : Auth where
  realm := cameraRealm
  nonce := nonce
  lookup username := if username.text = adminName.text then some adminPassword else none

def streamUri : List UInt8 := charSlice "rtsp://camera/stream"

def adminResponse (raw : Raw) : List UInt8 :=
  rfc2617Digest adminName.text cameraRealm.text adminPassword.text (generateNonce raw).text
    (charSlice "DESCRIBE") streamUri

theorem adminResponse_quoted (raw : Raw) :
    (adminResponse raw).length < valueMax ∧ ∀ c ∈ adminResponse raw, Quotable c := by
  constructor
  · rw [adminResponse, rfc2617Digest, md5Hex_length]
    decide
  · exact hex_quotable _

theorem nonce_length (raw : Raw) : (generateNonce raw).text.length = 32 := by
  rw [generateNonce, hex_length, Vector.length_toList]

theorem nonce_quoted (raw : Raw) :
    (generateNonce raw).text.length < valueMax ∧ ∀ c ∈ (generateNonce raw).text, Quotable c := by
  constructor
  · rw [nonce_length]
    decide
  · exact hex_quotable _

def adminPieces (raw : Raw) : List Piece := [
  .next "username" adminName.text (by decide +kernel) (by decide +kernel),
  .next "realm" cameraRealm.text (by decide +kernel) (by decide +kernel),
  .next "nonce" (generateNonce raw).text (by decide +kernel) (nonce_quoted raw),
  .next "uri" streamUri (by decide +kernel) (by decide +kernel),
  .next "response" (adminResponse raw) (by decide +kernel) (adminResponse_quoted raw)]

def adminAnswer (raw : Raw) : Answer where
  pieces := adminPieces raw
  tail := []
  blank _ member := absurd member List.not_mem_nil
  fits := by
    have response : (adminResponse raw).length = 32 := md5Hex_length _
    simp [adminPieces, Piece.next, Piece.bytes, response, nonce_length]
    decide +kernel

def adminRequest (raw : Raw) : Request where
  startLine := { method := charSlice "DESCRIBE", uri := streamUri, version := ⟨1, 0⟩ }
  headerMap := HeaderMap.empty.append
    { key := headerAuthorization, value := digestPrefix ++ (adminAnswer raw).text } (by decide)
  body := []
  cseq := 2

theorem admin_answers (nonce : CStr 32) (raw : Raw) :
    Answers (cameraAuth nonce) (generateNonce raw) (adminRequest raw) (adminAnswer raw) adminName
      adminPassword where
  inHeader := rfl
  user := ⟨rfl, by decide⟩
  realm := rfl
  challenge := by
    refine ⟨rfl, fun empty => ?_⟩
    have size := congrArg List.length empty
    rw [nonce_length] at size
    cases size
  uri := ⟨rfl, List.cons_ne_nil _ _⟩
  known := rfl
  method := by
    have short : (charSlice "DESCRIBE").length ≤ 31 ∧ ∀ c ∈ charSlice "DESCRIBE", c ≠ 0 := by
      decide +kernel
    exact short
  response := by
    have said : (adminAnswer raw).Says "response" (adminResponse raw) := rfl
    exact said

def sevenRaw : Raw := Vector.replicate 16 7

theorem admin_accepted :
    headerParams (adminRequest sevenRaw) = (adminPieces sevenRaw).map Piece.param ∧
      (cameraAuth (generateNonce sevenRaw)).accepts (adminRequest sevenRaw) = true ∧
      ∀ ctx room raw, (cameraAuth (generateNonce sevenRaw)).check ctx room (adminRequest sevenRaw)
        raw = (0, cameraAuth (generateNonce sevenRaw), none) :=
  correct_accepted ((admin_answers (generateNonce sevenRaw) sevenRaw).correct rfl)

end Compy.DigestAuth
