import Compy.Rtsp.Scan
import Compy.Srtp.Base64
import Compy.Srtp.Crypto

/-!
# The crypto attribute

`compy_srtp_format_crypto_attr` and `compy_srtp_parse_crypto_attr`: the tag, the suite and the
master key with its salt in base 64, as a session description carries them.  `snprintf` and
`sscanf` are those of glibc; the arrays on the stack start with any contents.
-/

set_option autoImplicit false

namespace Compy.Srtp

open CheckedBytes Base64 Compy.Rtsp

def SrtpSuite.str : SrtpSuite → List UInt8
  | .aesCm128HmacSha1_80 => charSlice "AES_CM_128_HMAC_SHA1_80"
  | .aesCm128HmacSha1_32 => charSlice "AES_CM_128_HMAC_SHA1_32"

/-- `%d` -/
def decimalInt (n : Int32) : List UInt8 :=
  if n.toInt < 0 then '-'.toUInt8 :: decimal n.toInt.natAbs else decimal n.toInt.natAbs

def inline : List UInt8 := charSlice "inline:"

def snprintf (buf text : List UInt8) : Int × List UInt8 :=
  if buf.length = 0 then (text.length, buf)
  else
    let written := text.take (buf.length - 1) ++ [0]
    (text.length, written ++ buf.drop written.length)

/-- A `size_t` taken for an `int`. -/
def asInt (n : Nat) : Int := (Int32.ofNat n).toInt

def srtpFormatCryptoAttr (buf : List UInt8) (tag : Int32) (suite : SrtpSuite)
    (key : SrtpKeyMaterial) (b64 : Vector UInt8 44) : Access (Int × List UInt8) := do
  let keySalt := key.masterKey.toList ++ key.masterSalt.toList
  let (b64Len, b64) ← base64Encode keySalt b64.toList
  if b64Len < 0 then pure (-1, buf)
  else
    let text := decimalInt tag ++ charSlice " " ++ suite.str ++ charSlice " " ++ inline ++ cStr b64
    let (ret, written) := snprintf buf text
    pure (if asInt buf.length ≤ ret then -1 else ret, written)

/-- What `%d` leaves of the string; nobody asks for the number. -/
def scanInt (str : List UInt8) : Option (List UInt8) :=
  let text := str.dropWhile isSpace
  let digits := if text.head? = some '-'.toUInt8 ∨ text.head? = some '+'.toUInt8 then text.tail
    else text
  if digits.takeWhile isDigit = [] then none else some (digits.dropWhile isDigit)

/-- `%63s`: the word and what it leaves. -/
def scanWord (str : List UInt8) : Option (List UInt8 × List UInt8) :=
  let text := str.dropWhile isSpace
  let word := (text.takeWhile fun c => !isSpace c).take 63
  if word = [] then none else some (word, text.drop word.length)

/-- A blank of the format stands for any white space. -/
def scanInline (str : List UInt8) : Option (List UInt8) :=
  let text := str.dropWhile isSpace
  if inline.isPrefixOf text then some (text.drop inline.length) else none

def scanCryptoAttr (attrValue : List UInt8) : Option (List UInt8 × List UInt8) := do
  let text ← scanInt attrValue
  let (suiteStr, text) ← scanWord text
  let text ← scanInline text
  let (b64Key, _) ← scanWord text
  some (suiteStr, b64Key)

def parseSuite (suiteStr : List UInt8) : Option SrtpSuite :=
  if suiteStr = charSlice "AES_CM_128_HMAC_SHA1_80" then some .aesCm128HmacSha1_80
  else if suiteStr = charSlice "AES_CM_128_HMAC_SHA1_32" then some .aesCm128HmacSha1_32
  else none

def bytesAt (size : Nat) (array : List UInt8) (offset : Nat) : Vector UInt8 size :=
  Vector.ofFn fun k => array.getD (offset + k.val) 0

/-- The return value, `*suite` and `*key`. -/
def srtpParseCryptoAttr (attrValue : List UInt8) (suite : SrtpSuite) (key : SrtpKeyMaterial)
    (keySalt : Vector UInt8 30) : Access (Int × SrtpSuite × SrtpKeyMaterial) :=
  match scanCryptoAttr (cStr attrValue) with
  | none => pure (-1, suite, key)
  | some (suiteStr, b64Key) =>
      match parseSuite suiteStr with
      | none => pure (-1, suite, key)
      | some suite => do
          let (decoded, keySalt) ← base64Decode b64Key keySalt.toList
          if decoded ≠ 30 then pure (-1, suite, key)
          else pure (0, suite, ⟨bytesAt 16 keySalt 0, bytesAt 14 keySalt 16⟩)

/-! ## The text of an attribute -/

def SrtpKeyMaterial.bytes (key : SrtpKeyMaterial) : List UInt8 :=
  key.masterKey.toList ++ key.masterSalt.toList

def cryptoAttr (tag : Int32) (suite : SrtpSuite) (key : SrtpKeyMaterial) : List UInt8 :=
  decimalInt tag ++ charSlice " " ++ suite.str ++ charSlice " " ++ inline ++ encodeText key.bytes

theorem length_bytes (key : SrtpKeyMaterial) : key.bytes.length = 30 := by
  simp [SrtpKeyMaterial.bytes]

/-- A word that `%63s` takes whole. -/
structure Word (text : List UInt8) : Prop where
  present : text ≠ []
  fits : text.length ≤ 63
  clean : ∀ c ∈ text, isSpace c = false ∧ c ≠ 0

theorem word_of_all {text : List UInt8} (size : 0 < text.length ∧ text.length ≤ 63)
    (all : (text.all fun c => !isSpace c && c != 0) = true) : Word text where
  present := List.length_pos_iff.mp size.1
  fits := size.2
  clean c member := by simpa using List.all_eq_true.mp all c member

theorem suite_word (suite : SrtpSuite) : Word suite.str := by
  cases suite <;> exact word_of_all (by decide) rfl

theorem inline_clean : Word inline := word_of_all (by decide) rfl

theorem key_word (key : SrtpKeyMaterial) : Word (encodeText key.bytes) := by
  have length := length_encodeText key.bytes
  rw [length_bytes] at length
  have letters : ∀ k : Fin 64, isSpace (b64Letter k) = false ∧ b64Letter k ≠ 0 := by decide
  refine ⟨?_, by omega, ?_⟩
  · intro empty
    rw [empty] at length
    contradiction
  · intro c member
    rcases List.mem_append.mp member with letter | pad
    · obtain ⟨k, _, rfl⟩ := List.mem_map.mp letter
      exact letters k
    · rw [List.eq_of_mem_replicate pad]
      decide

theorem decimalInt_clean (tag : Int32) : ∀ c ∈ decimalInt tag, isSpace c = false ∧ c ≠ 0 := by
  have digits : ∀ c ∈ decimal tag.toInt.natAbs, isSpace c = false ∧ c ≠ 0 := by
    intro c member
    have digit := decimal_digits _ c member
    exact ⟨digit_not_isSpace digit, matched_ne digit rfl⟩
  intro c member
  rw [decimalInt] at member
  split at member
  · rcases List.mem_cons.mp member with rfl | later
    · decide
    · exact digits c later
  · exact digits c member

/-! ## Reading it back -/

theorem Word.head {text : List UInt8} (word : Word text) (rest : List UInt8) :
    ∀ c, (text ++ rest).head? = some c → isSpace c = false := by
  obtain ⟨first, more, rfl⟩ := List.exists_cons_of_ne_nil word.present
  intro c same
  cases same
  exact (word.clean first List.mem_cons_self).1

theorem Word.unskipped {text : List UInt8} (word : Word text) (rest : List UInt8) :
    (text ++ rest).dropWhile isSpace = text ++ rest := by
  have nothing : ∀ c ∈ ([] : List UInt8), isSpace c = true := nofun
  exact (span_stops nothing (word.head rest)).2

theorem Word.skipped {text : List UInt8} (word : Word text) (rest : List UInt8) :
    (charSlice " " ++ (text ++ rest)).dropWhile isSpace = text ++ rest :=
  (span_stops (List.all_eq_true.mp rfl) (word.head rest)).2

theorem scanWord_of_text {str text rest : List UInt8} (word : Word text)
    (start : str.dropWhile isSpace = text ++ rest)
    (ends : ∀ c, rest.head? = some c → isSpace c = true) : scanWord str = some (text, rest) := by
  have inside : ∀ c ∈ text, (!isSpace c) = true := by
    intro c member
    simp [(word.clean c member).1]
  have stops : ∀ c, rest.head? = some c → (!isSpace c) = false := by
    intro c first
    simp [ends c first]
  rw [scanWord, start, (span_stops inside stops).1, List.take_of_length_le word.fits]
  simp [word.present]

theorem scanInt_decimalInt (tag : Int32) (rest : List UInt8)
    (ends : ∀ c, rest.head? = some c → isDigit c = false) :
    scanInt (decimalInt tag ++ rest) = some rest := by
  have span := span_stops (decimal_digits tag.toInt.natAbs) ends
  have digits : (decimal tag.toInt.natAbs ++ rest).takeWhile isDigit ≠ [] := by
    rw [span.1]
    exact decimal_ne_nil _
  obtain ⟨first, more, same⟩ := List.exists_cons_of_ne_nil (decimal_ne_nil tag.toInt.natAbs)
  have digit := decimal_digits tag.toInt.natAbs first (by rw [same]; exact List.mem_cons_self)
  have minus : first ≠ '-'.toUInt8 := matched_ne digit rfl
  have plus : first ≠ '+'.toUInt8 := matched_ne digit rfl
  rw [decimalInt]
  split
  · have sign : ('-'.toUInt8 :: (decimal tag.toInt.natAbs ++ rest)).dropWhile isSpace =
        '-'.toUInt8 :: (decimal tag.toInt.natAbs ++ rest) := rfl
    rw [List.cons_append, scanInt, sign]
    simp only [List.head?_cons, List.tail_cons, true_or, if_true, if_neg digits, span.2]
  · have start : (decimal tag.toInt.natAbs ++ rest).dropWhile isSpace =
        decimal tag.toInt.natAbs ++ rest := by
      rw [same, List.cons_append, List.dropWhile_cons, digit_not_isSpace digit]
      rfl
    have head : (decimal tag.toInt.natAbs ++ rest).head? = some first := by
      rw [same]
      rfl
    simp [scanInt, start, head, minus, plus, digits, span.2]

theorem scanInline_inline {rest : List UInt8} :
    scanInline (charSlice " " ++ (inline ++ rest)) = some rest := by
  rw [scanInline, inline_clean.skipped]
  simp

theorem scanCryptoAttr_cryptoAttr (tag : Int32) (suite : SrtpSuite) (key : SrtpKeyMaterial) :
    scanCryptoAttr (cryptoAttr tag suite key) = some (suite.str, encodeText key.bytes) := by
  have blank (rest : List UInt8) : ∀ c, (charSlice " " ++ rest).head? = some c →
      isSpace c = true ∧ isDigit c = false := by
    intro c same
    cases same
    decide
  have suiteWord := scanWord_of_text (suite_word suite)
    ((suite_word suite).skipped (charSlice " " ++ (inline ++ encodeText key.bytes)))
    (fun c same => (blank _ c same).1)
  have keyWord := scanWord_of_text (key_word key) ((key_word key).unskipped []) nofun
  rw [List.append_nil] at keyWord
  have text : cryptoAttr tag suite key = decimalInt tag ++ (charSlice " " ++ (suite.str ++
      (charSlice " " ++ (inline ++ encodeText key.bytes)))) := by
    simp only [cryptoAttr, List.append_assoc]
  rw [scanCryptoAttr, text, scanInt_decimalInt tag _ (fun c same => (blank _ c same).2)]
  simp only [Option.bind_eq_bind, Option.bind_some, suiteWord, scanInline_inline, keyWord]

theorem parseSuite_str (suite : SrtpSuite) : parseSuite suite.str = some suite := by
  cases suite <;> decide +kernel

theorem bytesAt_zero {size : Nat} (whole : Vector UInt8 size) (rest : List UInt8) :
    bytesAt size (whole.toList ++ rest) 0 = whole := by
  apply Vector.ext
  intro k inside
  have front : k < whole.toList.length := by simpa using inside
  simp [bytesAt, List.getElem?_append_left front, inside]

theorem bytesAt_length {size offset : Nat} (front : Vector UInt8 offset)
    (whole : Vector UInt8 size) : bytesAt size (front.toList ++ whole.toList) offset = whole := by
  apply Vector.ext
  intro k inside
  simp [bytesAt]

theorem decode_key (key : SrtpKeyMaterial) (keySalt : Vector UInt8 30) :
    base64Decode (encodeText key.bytes) keySalt.toList = .ok (30, key.bytes) := by
  have spells : Spells b64Letter equalsSign (encodeText key.bytes) (pack key.bytes) :=
    encode_spells key.bytes
  have decoded := base64Decode_spelled spells keySalt.toList
  have size : keySalt.toList.length = 30 := Vector.length_toList
  rw [unpack_pack, length_bytes, if_neg (by omega), List.drop_of_length_le (by omega),
    List.append_nil] at decoded
  exact decoded

theorem cStr_terminated {text : List UInt8} (clean : ∀ c ∈ text, c ≠ 0) (rest : List UInt8) :
    cStr (text ++ 0 :: rest) = text := by
  have inside : ∀ c ∈ text, (c != 0) = true := fun c member => bne_iff_ne.mpr (clean c member)
  have stops : ∀ c, (0 :: rest).head? = some c → (c != 0) = false := by
    intro c same
    cases same
    rfl
  exact (span_stops inside stops).1

theorem cryptoAttr_clean (tag : Int32) (suite : SrtpSuite) (key : SrtpKeyMaterial) :
    ∀ c ∈ cryptoAttr tag suite key, c ≠ 0 := by
  have blank : ∀ c ∈ charSlice " ", c ≠ 0 := by decide +kernel
  intro c member
  simp only [cryptoAttr, List.mem_append] at member
  rcases member with ((((inTag | first) | inSuite) | second) | inInline) | inKey
  · exact (decimalInt_clean tag c inTag).2
  · exact blank c first
  · exact ((suite_word suite).clean c inSuite).2
  · exact blank c second
  · exact (inline_clean.clean c inInline).2
  · exact ((key_word key).clean c inKey).2

theorem parse_cryptoAttr (tag : Int32) (suite old : SrtpSuite) (key before : SrtpKeyMaterial)
    (keySalt : Vector UInt8 30) (rest : List UInt8) :
    srtpParseCryptoAttr (cryptoAttr tag suite key ++ 0 :: rest) old before keySalt =
      .ok (0, suite, key) := by
  rw [srtpParseCryptoAttr, cStr_terminated (cryptoAttr_clean tag suite key),
    scanCryptoAttr_cryptoAttr]
  simp only [parseSuite_str, decode_key, ok_bind]
  simp [SrtpKeyMaterial.bytes, bytesAt_zero, bytesAt_length]

/-! ## Writing it -/

theorem snprintf_fits (buf text : List UInt8) (fits : text.length + 1 ≤ buf.length) :
    snprintf buf text = ((text.length : Int), text ++ 0 :: buf.drop (text.length + 1)) := by
  have whole : text.take (buf.length - 1) = text := List.take_of_length_le (by omega)
  rw [snprintf, if_neg (by omega), whole]
  simp

theorem snprintf_length (buf text : List UInt8) : (snprintf buf text).1 = text.length := by
  unfold snprintf
  split <;> rfl

theorem asInt_small (n : Nat) (small : n < 2 ^ 31) : asInt n = n :=
  Int32.toInt_ofNat_of_lt small

theorem format_eq (buf : List UInt8) (tag : Int32) (suite : SrtpSuite) (key : SrtpKeyMaterial)
    (b64 : Vector UInt8 44) :
    srtpFormatCryptoAttr buf tag suite key b64 =
      .ok (if asInt buf.length ≤ (cryptoAttr tag suite key).length then -1
        else (cryptoAttr tag suite key).length, (snprintf buf (cryptoAttr tag suite key)).2) := by
  have length := length_encodeText key.bytes
  rw [length_bytes] at length
  have encoded := base64Encode_ok key.bytes b64.toList (by
    rw [length, Vector.length_toList]
    decide)
  have clean : ∀ c ∈ encodeText key.bytes, c ≠ 0 := fun c member =>
    ((key_word key).clean c member).2
  rw [srtpFormatCryptoAttr]
  change (base64Encode key.bytes b64.toList >>= _) = _
  rw [encoded, ok_bind]
  dsimp only
  rw [if_neg (by omega), cStr_terminated clean]
  change Except.ok (if asInt buf.length ≤ (snprintf buf (cryptoAttr tag suite key)).1 then -1
    else (snprintf buf (cryptoAttr tag suite key)).1, _) = _
  rw [snprintf_length]
  rfl

/-- What the formatter accepts reads back, and it accepts all that fits. -/
theorem cryptoAttr_round_trip (buf : List UInt8) (tag : Int32) (suite old : SrtpSuite)
    (key before : SrtpKeyMaterial) (b64 : Vector UInt8 44) (keySalt : Vector UInt8 30)
    (small : buf.length < 2 ^ 31) :
    ∃ ret written, srtpFormatCryptoAttr buf tag suite key b64 = .ok (ret, written) ∧
      (0 ≤ ret → srtpParseCryptoAttr written old before keySalt = .ok (0, suite, key)) ∧
      (ret < 0 → ret = -1 ∧ buf.length < (cryptoAttr tag suite key).length + 1) := by
  refine ⟨_, _, format_eq buf tag suite key b64, ?_, ?_⟩
  · intro accepted
    rw [asInt_small _ small] at accepted
    have fits : (cryptoAttr tag suite key).length + 1 ≤ buf.length := by
      split at accepted <;> omega
    rw [snprintf_fits buf _ fits]
    exact parse_cryptoAttr tag suite old key before keySalt _
  · intro refused
    rw [asInt_small _ small] at refused ⊢
    split at refused
    · rename_i long
      rw [if_pos long]
      omega
    · omega

def attrMaster : SrtpKeyMaterial := ⟨Vector.replicate 16 0xFB, Vector.replicate 14 0xEF⟩

theorem cryptoAttr_round_trip_negative :
    ∃ ret written, srtpFormatCryptoAttr (List.replicate 128 1) (-7) .aesCm128HmacSha1_32 attrMaster
        (Vector.replicate 44 2) = .ok (ret, written) ∧
      (0 ≤ ret → srtpParseCryptoAttr written .aesCm128HmacSha1_80
        ⟨Vector.replicate 16 0, Vector.replicate 14 0⟩ (Vector.replicate 30 3) =
          .ok (0, .aesCm128HmacSha1_32, attrMaster)) ∧
      (ret < 0 → ret = -1 ∧
        128 < (cryptoAttr (-7) .aesCm128HmacSha1_32 attrMaster).length + 1) := by
  have whole := cryptoAttr_round_trip (List.replicate 128 1) (-7) .aesCm128HmacSha1_32
    .aesCm128HmacSha1_80 attrMaster ⟨Vector.replicate 16 0, Vector.replicate 14 0⟩
    (Vector.replicate 44 2) (Vector.replicate 30 3) (by rw [List.length_replicate]; decide)
  rw [List.length_replicate] at whole
  exact whole

end Compy.Srtp
