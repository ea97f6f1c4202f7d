import Compy.DigestAuth.Md5
import Compy.Rtsp.Scan

/-!
# Digest parameters

The digest of a request and the parameters of an `Authorization` header.  A NUL-terminated
array of `max + 1` characters is the string in it.
-/

set_option autoImplicit false

namespace Compy.DigestAuth

open Compy.Rtsp

structure CStr (max : Nat) where
  text : List UInt8
  fits : text.length ≤ max
  noNul : ∀ c ∈ text, c ≠ 0

namespace CStr

theorem ext_text {max : Nat} {left right : CStr max} (same : left.text = right.text) :
    left = right := by
  cases left
  cases right
  cases same
  rfl

/-- As many bytes as fit in front of the terminator, and no more than up to a NUL. -/
def copy (max : Nat) (data : List UInt8) : CStr max where
  text := cStr (data.take max)
  fits := ((List.takeWhile_sublist _).length_le).trans (List.length_take_le max data)
  noNul c member := by simpa using List.mem_takeWhile_imp member

def empty (max : Nat) : CStr max := copy max []

theorem copy_text_take {max : Nat} {data : List UInt8} (noNul : ∀ c ∈ data, c ≠ 0) :
    (copy max data).text = data.take max :=
  cStr_of_present _ fun c member => noNul c (List.mem_of_mem_take member)

theorem copy_text {max : Nat} {data : List UInt8} (fits : data.length ≤ max)
    (noNul : ∀ c ∈ data, c ≠ 0) : (copy max data).text = data := by
  rw [copy_text_take noNul, List.take_of_length_le fits]

end CStr

/-- What `snprintf` leaves in a buffer of the size. -/
def snprintf (size : Nat) (text : List UInt8) : List UInt8 := text.take (size - 1)

def colon : List UInt8 := charSlice ":"

def digestResponse (username realm password nonce method uri : List UInt8) : List UInt8 :=
  let ha1 := md5Hex (snprintf 1024 (username ++ colon ++ realm ++ colon ++ password))
  let ha2 := md5Hex (snprintf 1024 (method ++ colon ++ uri))
  md5Hex (snprintf 1024 (ha1 ++ colon ++ nonce ++ colon ++ ha2))

/-- The digest of RFC 2617 over strings of any length. -/
def rfc2617Digest (username realm password nonce method uri : List UInt8) : List UInt8 :=
  md5Hex (md5Hex (username ++ colon ++ realm ++ colon ++ password) ++ colon ++ nonce ++ colon ++
    md5Hex (method ++ colon ++ uri))

theorem snprintf_fits {size : Nat} {text : List UInt8} (fits : text.length < size) :
    snprintf size text = text :=
  List.take_of_length_le (Nat.le_sub_one_of_lt fits)

theorem digestResponse_eq (username : CStr 255) (realm : CStr 127) (password : CStr 255)
    (nonce : CStr 32) (method : CStr 31) (uri : CStr 511) :
    digestResponse username.text realm.text password.text nonce.text method.text uri.text =
      rfc2617Digest username.text realm.text password.text nonce.text method.text uri.text := by
  have one : colon.length = 1 := rfl
  have first : (username.text ++ colon ++ realm.text ++ colon ++ password.text).length < 1024 := by
    have sizes := And.intro username.fits (And.intro realm.fits password.fits)
    simp only [List.length_append, one]
    omega
  have second : (method.text ++ colon ++ uri.text).length < 1024 := by
    have sizes := And.intro method.fits uri.fits
    simp only [List.length_append, one]
    omega
  rw [digestResponse, snprintf_fits first, snprintf_fits second, snprintf_fits, rfc2617Digest]
  have size := nonce.fits
  simp only [List.length_append, md5Hex_length, one]
  omega

/-! ## The parameters of the header -/

def isSeparator (c : UInt8) : Bool := c == ' '.toUInt8 || c == ','.toUInt8 || c == '\t'.toUInt8

def endsValue (quoted : Bool) (c : UInt8) : Bool :=
  if quoted then c == '"'.toUInt8 else c == ','.toUInt8 || c == ' '.toUInt8

def parseDigestParam (keyMax valueMax : Nat) (p : List UInt8) :
    Option ((List UInt8 × List UInt8) × List UInt8) :=
  let s := p.dropWhile isSeparator
  if s = [] then none
  else
    let key := (s.takeWhile (· != '='.toUInt8)).take (keyMax - 1)
    let s := s.drop key.length
    if s.head? ≠ some '='.toUInt8 then none
    else
      let s := s.tail
      let quoted := s.head? == some '"'.toUInt8
      let s := if quoted then s.tail else s
      let value := (s.takeWhile (!endsValue quoted ·)).take (valueMax - 1)
      let s := s.drop value.length
      some ((key, value), if quoted && s.head? == some '"'.toUInt8 then s.tail else s)

theorem tail_suffix (quoted : Bool) (s : List UInt8) : (if quoted then s.tail else s) <:+ s := by
  split
  · exact List.tail_suffix s
  · exact List.suffix_refl s

theorem parseDigestParam_shrinks {keyMax valueMax : Nat} {p rest : List UInt8}
    {param : List UInt8 × List UInt8}
    (read : parseDigestParam keyMax valueMax p = some (param, rest)) : rest.length < p.length := by
  simp only [parseDigestParam] at read
  split at read
  · cases read
  · split at read
    · cases read
    · rename_i equals
      rw [not_not] at equals
      cases read
      generalize atEquals : List.drop _ (p.dropWhile isSeparator) = s at equals ⊢
      have inside : s.length ≤ p.length := by
        rw [← atEquals, List.length_drop]
        have skipped := (List.dropWhile_suffix (l := p) isSeparator).length_le
        omega
      have one : s.tail.length < s.length := by
        cases s with
        | nil => cases equals
        | cons c s => exact Nat.lt_succ_self _
      refine Nat.lt_of_le_of_lt (tail_suffix _ _).length_le ?_
      rw [List.length_drop]
      have unquoted := (tail_suffix (s.tail.head? == some '"'.toUInt8) s.tail).length_le
      omega

def keyMax : Nat := 64

def valueMax : Nat := 512

/-- The parameters that the loop in `compy_auth_check` goes over. -/
def digestParams (p : List UInt8) : List (List UInt8 × List UInt8) :=
  match _ : parseDigestParam keyMax valueMax p with
  | none => []
  | some (param, rest) => param :: digestParams rest
termination_by p.length
decreasing_by exact parseDigestParam_shrinks (by assumption)

theorem digestParams_none {p : List UInt8} (ends : parseDigestParam keyMax valueMax p = none) :
    digestParams p = [] := by
  rw [digestParams]
  split
  · rfl
  · rename_i more
    rw [ends] at more
    cases more

theorem digestParams_some {p rest : List UInt8} {param : List UInt8 × List UInt8}
    (read : parseDigestParam keyMax valueMax p = some (param, rest)) :
    digestParams p = param :: digestParams rest := by
  rw [digestParams]
  split
  · rename_i ends
    rw [read] at ends
    cases ends
  · rename_i again
    rw [read] at again
    cases again
    rfl

structure Params where
  username : CStr 255
  realm : CStr 127
  nonce : CStr 32
  uri : CStr 511
  response : CStr 32

namespace Params

def empty : Params := ⟨.empty _, .empty _, .empty _, .empty _, .empty _⟩

/-- The body of the loop. -/
def store (self : Params) (param : List UInt8 × List UInt8) : Params :=
  let (key, value) := param
  if key = charSlice "username" then { self with username := .copy _ value }
  else if key = charSlice "realm" then { self with realm := .copy _ value }
  else if key = charSlice "nonce" then { self with nonce := .copy _ value }
  else if key = charSlice "uri" then { self with uri := .copy _ value }
  else if key = charSlice "response" then { self with response := .copy _ value }
  else self

/-- The buffers after the loop over the text behind `Digest `. -/
def parse (text : List UInt8) : Params :=
  (digestParams (CStr.copy 1023 text).text).foldl store empty

end Params

/-! ## What is left in the buffers -/

theorem parseDigestParam_parts {p rest key value : List UInt8}
    (read : parseDigestParam keyMax valueMax p = some ((key, value), rest)) :
    value.length < valueMax ∧ value.Sublist p ∧ rest.Sublist p := by
  simp only [parseDigestParam] at read
  split at read
  · cases read
  · split at read
    · cases read
    · cases read
      generalize atEquals : List.drop _ (p.dropWhile isSeparator) = s
      have front : s.tail.Sublist p := by
        rw [← atEquals]
        exact (List.tail_sublist _).trans ((List.drop_sublist _ _).trans (List.dropWhile_sublist _))
      generalize (s.tail.head? == some '"'.toUInt8) = quoted
      have text := (tail_suffix quoted s.tail).sublist.trans front
      refine ⟨?_, ?_, ?_⟩
      · rw [List.length_take, valueMax]
        omega
      · exact (List.take_sublist _ _).trans ((List.takeWhile_sublist _).trans text)
      · exact (tail_suffix _ _).sublist.trans ((List.drop_sublist _ _).trans text)

theorem digestParams_values {p : List UInt8} (noNul : ∀ c ∈ p, c ≠ 0) :
    ∀ param ∈ digestParams p, param.2.length < valueMax ∧ ∀ c ∈ param.2, c ≠ 0 := by
  induction size : p.length using Nat.strong_induction_on generalizing p with
  | _ count ih =>
      cases read : parseDigestParam keyMax valueMax p with
      | none =>
          rw [digestParams_none read]
          simp
      | some result =>
          obtain ⟨⟨key, value⟩, rest⟩ := result
          obtain ⟨fits, inside, behind⟩ := parseDigestParam_parts read
          have shorter := parseDigestParam_shrinks read
          rw [digestParams_some read, List.forall_mem_cons]
          constructor
          · exact ⟨fits, fun c member => noNul c (inside.mem member)⟩
          · exact ih rest.length (by omega) (fun c member => noNul c (behind.mem member)) rfl

def lastValue (params : List (List UInt8 × List UInt8)) (key : String) : List UInt8 :=
  (((params.filter fun param => param.1 == charSlice key).getLast?).map Prod.snd).getD []

theorem lastValue_fits {p : List UInt8} (noNul : ∀ c ∈ p, c ≠ 0) (key : String) :
    (lastValue (digestParams p) key).length < valueMax ∧
      ∀ c ∈ lastValue (digestParams p) key, c ≠ 0 := by
  rw [lastValue]
  cases last : ((digestParams p).filter fun param => param.1 == charSlice key).getLast? with
  | none => exact ⟨by decide, fun c member => absurd member List.not_mem_nil⟩
  | some param =>
      have member := (List.mem_filter.mp (List.mem_of_getLast? last)).1
      exact digestParams_values noNul param member

theorem lastValue_concat (params : List (List UInt8 × List UInt8))
    (param : List UInt8 × List UInt8) (key : String) :
    lastValue (params ++ [param]) key =
      if param.1 = charSlice key then param.2 else lastValue params key := by
  rw [lastValue, List.filter_append]
  by_cases same : param.1 = charSlice key
  · rw [if_pos same, List.filter_cons_of_pos (by simpa using same), List.filter_nil,
      List.getLast?_concat]
    rfl
  · rw [if_neg same, List.filter_cons_of_neg (by simpa using same), List.filter_nil,
      List.append_nil, lastValue]

/-- Behind the loop every buffer holds the last value of its key. -/
theorem Params.stored (params : List (List UInt8 × List UInt8)) :
    params.foldl Params.store .empty = {
      username := .copy _ (lastValue params "username")
      realm := .copy _ (lastValue params "realm")
      nonce := .copy _ (lastValue params "nonce")
      uri := .copy _ (lastValue params "uri")
      response := .copy _ (lastValue params "response") } := by
  induction params using List.reverseRecOn with
  | nil => rfl
  | append_singleton params param ih =>
      obtain ⟨key, value⟩ := param
      rw [List.foldl_append, ih, List.foldl_cons, List.foldl_nil]
      simp only [store, lastValue_concat]
      split_ifs <;> simp_all +decide

end Compy.DigestAuth
