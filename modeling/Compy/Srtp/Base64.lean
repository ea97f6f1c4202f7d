import Compy.Library.Base64
import Compy.Library.CheckedBytes

/-!
# Base 64

`base64.c`, with which the master keys of a session are written into its description.  Sizes
are numbers without bound: no object in memory is so long that `(len + 2) / 3 * 4 + 1` leaves
`size_t`, as `encodedSize_fits` says.
-/

set_option autoImplicit false

namespace Compy.Srtp

open CheckedBytes Base64

def b64Table : List UInt8 := [
  'A', 'B', 'C', 'D', 'E', 'F', 'G', 'H', 'I', 'J', 'K', 'L', 'M', 'N', 'O', 'P', 'Q', 'R', 'S',
  'T', 'U', 'V', 'W', 'X', 'Y', 'Z', 'a', 'b', 'c', 'd', 'e', 'f', 'g', 'h', 'i', 'j', 'k', 'l',
  'm', 'n', 'o', 'p', 'q', 'r', 's', 't', 'u', 'v', 'w', 'x', 'y', 'z', '0', '1', '2', '3', '4',
  '5', '6', '7', '8', '9', '+', '/'].map Char.toUInt8

def equalsSign : UInt8 := '='.toUInt8

def within (first last : Char) (c : UInt8) : Bool := first.toUInt8 ≤ c && c ≤ last.toUInt8

/-- Every entry that the table does not name is 0. -/
def b64DecodeTable (c : UInt8) : UInt8 :=
  if within 'A' 'Z' c then c - 'A'.toUInt8
  else if within 'a' 'z' c then 26 + (c - 'a'.toUInt8)
  else if within '0' '9' c then 52 + (c - '0'.toUInt8)
  else if c = '+'.toUInt8 then 62
  else if c = '/'.toUInt8 then 63
  else 0

def b64ValidChar (c : UInt8) : Bool :=
  within 'A' 'Z' c || within 'a' 'z' c || within '0' '9' c || c == '+'.toUInt8 ||
    c == '/'.toUInt8 || c == equalsSign

/-- A character for the six bits of the triplet from `shift` on. -/
def b64Char (triplet shift : UInt32) : UInt8 :=
  b64Table.getD ((triplet >>> shift) &&& 0x3F).toNat 0

/-- The loop over whole triplets and the branch for what is left, from position `oi`. -/
def encodeFrom (out : List UInt8) (oi : Nat) : List UInt8 → Access (List UInt8 × Nat)
  | x :: y :: z :: rest => do
      let triplet := x.toUInt32 <<< 16 ||| y.toUInt32 <<< 8 ||| z.toUInt32
      let out ← writeBytes out oi [b64Char triplet 18, b64Char triplet 12, b64Char triplet 6,
        b64Char triplet 0]
      encodeFrom out (oi + 4) rest
  | [x, y] => do
      let triplet := x.toUInt32 <<< 16 ||| y.toUInt32 <<< 8
      let out ← writeBytes out oi [b64Char triplet 18, b64Char triplet 12, b64Char triplet 6,
        equalsSign]
      pure (out, oi + 4)
  | [x] => do
      let triplet := x.toUInt32 <<< 16
      let out ← writeBytes out oi [b64Char triplet 18, b64Char triplet 12, equalsSign, equalsSign]
      pure (out, oi + 4)
  | [] => pure (out, oi)

def base64Encode (data out : List UInt8) : Access (Int × List UInt8) :=
  let needed := (data.length + 2) / 3 * 4 + 1
  if out.length < needed then pure (-1, out)
  else do
    let (out, oi) ← encodeFrom out 0 data
    let out ← writeBytes out oi [0]
    pure (oi, out)

/-- `if (oi < decoded_len) dst[oi++] = byte` -/
def store (decodedLen : Nat) (dst : List UInt8 × Nat) (byte : UInt8) : Access (List UInt8 × Nat) :=
  if dst.2 < decodedLen then do
    let out ← writeBytes dst.1 dst.2 [byte]
    pure (out, dst.2 + 1)
  else pure dst

def decodeFrom (decodedLen : Nat) (dst : List UInt8 × Nat) : List UInt8 → Access (List UInt8 × Nat)
  | a :: b :: c :: d :: rest => do
      let triple := (b64DecodeTable a).toUInt32 <<< 18 ||| (b64DecodeTable b).toUInt32 <<< 12 |||
        (b64DecodeTable c).toUInt32 <<< 6 ||| (b64DecodeTable d).toUInt32
      let dst ← store decodedLen dst ((triple >>> 16) &&& 0xFF).toUInt8
      let dst ← store decodedLen dst ((triple >>> 8) &&& 0xFF).toUInt8
      let dst ← store decodedLen dst (triple &&& 0xFF).toUInt8
      decodeFrom decodedLen dst rest
  | _ => pure dst

/-- The last two characters, each looked at for itself. -/
def padCount (b64 : List UInt8) : Nat :=
  (if b64.getD (b64.length - 1) 0 = equalsSign then 1 else 0) +
    (if 1 < b64.length ∧ b64.getD (b64.length - 2) 0 = equalsSign then 1 else 0)

def base64Decode (b64 out : List UInt8) : Access (Int × List UInt8) :=
  if b64.length = 0 then pure (0, out)
  else if b64.length % 4 ≠ 0 then pure (-1, out)
  else if ¬ b64.all b64ValidChar then pure (-1, out)
  else
    let decodedLen := b64.length / 4 * 3 - padCount b64
    if out.length < decodedLen then pure (-1, out)
    else do
      let (out, _) ← decodeFrom decodedLen (out, 0) b64
      pure (decodedLen, out)

theorem encodedSize_fits (length : Nat) (object : length < 2 ^ 63) :
    (length + 2) / 3 * 4 + 1 < 2 ^ 64 := by
  omega

/-! ## The tables -/

def b64Letter (k : Fin 64) : UInt8 := b64Table.getD k.val 0

theorem decodeTable_lt : ∀ c, (b64DecodeTable c).toNat < 64 := by
  have all : ∀ n < 256, (b64DecodeTable (UInt8.ofNat n)).toNat < 64 := by decide +kernel
  intro c
  have one := all c.toNat c.toNat_lt
  rwa [UInt8.ofNat_toNat] at one

def sextetOf (c : UInt8) : Fin 64 := ⟨(b64DecodeTable c).toNat, decodeTable_lt c⟩

theorem sextetOf_letter (k : Fin 64) : sextetOf (b64Letter k) = k := by
  revert k
  decide

theorem sextetOf_equalsSign : sextetOf equalsSign = 0 := rfl

theorem letter_ne_equalsSign (k : Fin 64) : b64Letter k ≠ equalsSign := by
  revert k
  decide

theorem validChar_iff (c : UInt8) :
    b64ValidChar c = true ↔ c = equalsSign ∨ b64Letter (sextetOf c) = c := by
  have all : ∀ n < 256, (b64ValidChar (UInt8.ofNat n) = true ↔
      UInt8.ofNat n = equalsSign ∨ b64Letter (sextetOf (UInt8.ofNat n)) = UInt8.ofNat n) := by
    decide +kernel
  have one := all c.toNat c.toNat_lt
  rwa [UInt8.ofNat_toNat] at one

theorem letter_valid (k : Fin 64) : b64ValidChar (b64Letter k) = true := by
  rw [validChar_iff, sextetOf_letter]
  exact .inr rfl

/-! ## Words put together from parts that do not overlap -/

theorem toNat_part (part : UInt8) (shift : UInt32) (small : shift.toNat ≤ 24) :
    (part.toUInt32 <<< shift).toNat = part.toNat * 2 ^ shift.toNat := by
  have bound : part.toNat < 2 ^ 8 := part.toNat_lt
  have room : 2 ^ 8 * 2 ^ shift.toNat ≤ 2 ^ 32 := by
    rw [← Nat.pow_add]
    exact Nat.pow_le_pow_right (by decide) (by omega)
  have fits := Nat.mul_lt_mul_of_pos_right bound (Nat.two_pow_pos shift.toNat)
  rw [UInt32.toNat_shiftLeft, UInt8.toNat_toUInt32, Nat.mod_eq_of_lt (by omega : _ < 32),
    Nat.shiftLeft_eq]
  exact Nat.mod_eq_of_lt (Nat.lt_of_lt_of_le fits room)

theorem toNat_above (high low : UInt32) (width : Nat) (aligned : 2 ^ width ∣ high.toNat)
    (below : low.toNat < 2 ^ width) : (high ||| low).toNat = high.toNat + low.toNat := by
  obtain ⟨count, same⟩ := aligned
  rw [UInt32.toNat_or, same, ← Nat.two_pow_add_eq_or_of_lt below]

theorem triplet_toNat (x y z : UInt8) :
    (x.toUInt32 <<< 16 ||| y.toUInt32 <<< 8 ||| z.toUInt32).toNat = ofOctets x y z := by
  have first : (x.toUInt32 <<< 16).toNat = x.toNat * 65536 := toNat_part x 16 (by decide)
  have second : (y.toUInt32 <<< 8).toNat = y.toNat * 256 := toNat_part y 8 (by decide)
  have third : z.toUInt32.toNat = z.toNat := UInt8.toNat_toUInt32 z
  have := y.toNat_lt
  have := z.toNat_lt
  have two := toNat_above (x.toUInt32 <<< 16) (y.toUInt32 <<< 8) 16 (by omega) (by omega)
  rw [toNat_above _ z.toUInt32 8 (by omega) (by omega), two, first, second, third, ofOctets]
  omega

theorem triplet_two (x y : UInt8) :
    (x.toUInt32 <<< 16 ||| y.toUInt32 <<< 8).toNat = ofOctets x y 0 := by
  rw [← triplet_toNat x y 0]
  simp

theorem triplet_one (x : UInt8) : (x.toUInt32 <<< 16).toNat = ofOctets x 0 0 := by
  rw [← triplet_two x 0]
  simp

theorem triple_toNat (a b c d : UInt8) :
    ((b64DecodeTable a).toUInt32 <<< 18 ||| (b64DecodeTable b).toUInt32 <<< 12 |||
      (b64DecodeTable c).toUInt32 <<< 6 ||| (b64DecodeTable d).toUInt32).toNat =
      ofSextets (sextetOf a) (sextetOf b) (sextetOf c) (sextetOf d) := by
  have first : ((b64DecodeTable a).toUInt32 <<< 18).toNat = (b64DecodeTable a).toNat * 262144 :=
    toNat_part _ 18 (by decide)
  have second : ((b64DecodeTable b).toUInt32 <<< 12).toNat = (b64DecodeTable b).toNat * 4096 :=
    toNat_part _ 12 (by decide)
  have third : ((b64DecodeTable c).toUInt32 <<< 6).toNat = (b64DecodeTable c).toNat * 64 :=
    toNat_part _ 6 (by decide)
  have last : (b64DecodeTable d).toUInt32.toNat = (b64DecodeTable d).toNat :=
    UInt8.toNat_toUInt32 _
  have := decodeTable_lt b
  have := decodeTable_lt c
  have := decodeTable_lt d
  have two := toNat_above ((b64DecodeTable a).toUInt32 <<< 18)
    ((b64DecodeTable b).toUInt32 <<< 12) 18 (by omega) (by omega)
  have three := toNat_above _ ((b64DecodeTable c).toUInt32 <<< 6) 12
    (by rw [two]; omega) (by omega)
  rw [toNat_above _ (b64DecodeTable d).toUInt32 6 (by omega) (by omega), three, two, first,
    second, third, last]
  simp only [ofSextets, sextetOf]
  omega

theorem b64Char_eq (triplet shift : UInt32) (small : shift.toNat < 32) :
    b64Char triplet shift = b64Letter (Fin.ofNat 64 (triplet.toNat / 2 ^ shift.toNat)) := by
  have mask : (0x3F : UInt32).toNat = 2 ^ 6 - 1 := rfl
  rw [b64Char, b64Letter, UInt32.toNat_and, UInt32.toNat_shiftRight, Nat.mod_eq_of_lt small,
    Nat.shiftRight_eq_div_pow, mask, Nat.and_two_pow_sub_one_eq_mod, Fin.val_ofNat]

theorem chars_eq (triplet : UInt32) :
    [b64Char triplet 18, b64Char triplet 12, b64Char triplet 6, b64Char triplet 0] =
      (sextets triplet.toNat).map b64Letter := by
  have last : triplet.toNat / 2 ^ (0 : UInt32).toNat = triplet.toNat := by simp
  rw [b64Char_eq triplet 18 (by decide), b64Char_eq triplet 12 (by decide),
    b64Char_eq triplet 6 (by decide), b64Char_eq triplet 0 (by decide), last]
  rfl

theorem byte_eq (triple shift : UInt32) (small : shift.toNat < 32) :
    ((triple >>> shift) &&& 0xFF).toUInt8 = UInt8.ofNat (triple.toNat / 2 ^ shift.toNat) := by
  have mask : (0xFF : UInt32).toNat = 2 ^ 8 - 1 := rfl
  apply UInt8.toNat_inj.mp
  rw [UInt32.toNat_toUInt8, UInt32.toNat_and, UInt32.toNat_shiftRight, Nat.mod_eq_of_lt small,
    Nat.shiftRight_eq_div_pow, mask, Nat.and_two_pow_sub_one_eq_mod, UInt8.toNat_ofNat']
  exact Nat.mod_mod _ _

/-! ## Encoding -/

abbrev encodeText (data : List UInt8) : List UInt8 := encode b64Letter equalsSign data

theorem length_encodeText (data : List UInt8) :
    (encodeText data).length = 4 * ((data.length + 2) / 3) := length_encode data

theorem encodeFrom_ok (data out : List UInt8) (oi : Nat)
    (room : oi + (encodeText data).length ≤ out.length) :
    encodeFrom out oi data = (writeBytes out oi (encodeText data) >>= fun out =>
      .ok (out, oi + (encodeText data).length)) := by
  induction data using pack.induct generalizing out oi with
  | case1 x y z rest ih =>
      have same := chars_eq (x.toUInt32 <<< 16 ||| y.toUInt32 <<< 8 ||| z.toUInt32)
      rw [triplet_toNat] at same
      have text : encodeText (x :: y :: z :: rest) =
          (sextets (ofOctets x y z)).map b64Letter ++ encodeText rest := encode_group x y z rest
      have four : ((sextets (ofOctets x y z)).map b64Letter).length = 4 := rfl
      generalize (sextets (ofOctets x y z)).map b64Letter = group at *
      rw [text, List.length_append, four] at room
      have inside : oi + group.length ≤ out.length := by omega
      have size := length_written out oi group inside
      rw [encodeFrom, same, text, ← writeBytes_append, writeBytes_ok out oi group inside]
      simp only [ok_bind]
      rw [ih _ (oi + 4) (by rw [size]; omega), four, List.length_append, four, Nat.add_assoc]
  | case2 x y =>
      have same := chars_eq (x.toUInt32 <<< 16 ||| y.toUInt32 <<< 8)
      rw [triplet_two] at same
      simp only [sextets, List.map_cons, List.map_nil, List.cons.injEq] at same
      have text : encodeText [x, y] = [b64Char (x.toUInt32 <<< 16 ||| y.toUInt32 <<< 8) 18,
          b64Char (x.toUInt32 <<< 16 ||| y.toUInt32 <<< 8) 12,
          b64Char (x.toUInt32 <<< 16 ||| y.toUInt32 <<< 8) 6, equalsSign] := by
        rw [same.1, same.2.1, same.2.2.1]
        rfl
      rw [text]
      rfl
  | case3 x =>
      have same := chars_eq (x.toUInt32 <<< 16)
      rw [triplet_one] at same
      simp only [sextets, List.map_cons, List.map_nil, List.cons.injEq] at same
      have text : encodeText [x] = [b64Char (x.toUInt32 <<< 16) 18,
          b64Char (x.toUInt32 <<< 16) 12, equalsSign, equalsSign] := by
        rw [same.1, same.2.1]
        rfl
      rw [text]
      rfl
  | case4 =>
      rw [writeBytes_ok out oi (encodeText []) room]
      simp [encodeFrom, encodeText, encode, pack, padding]

theorem base64Encode_ok (data out : List UInt8)
    (room : (encodeText data).length + 1 ≤ out.length) :
    base64Encode data out = .ok ((encodeText data).length,
      encodeText data ++ 0 :: out.drop ((encodeText data).length + 1)) := by
  have length := length_encodeText data
  have written := writeBytes_append out 0 (encodeText data) [0]
  rw [writeBytes_ok out 0 (encodeText data) (by omega), ok_bind,
    writeBytes_ok out 0 (encodeText data ++ [0]) (by
      rw [List.length_append, List.length_singleton]
      omega)] at written
  rw [base64Encode, if_neg (by omega), encodeFrom_ok data out 0 (by omega),
    writeBytes_ok out 0 (encodeText data) (by omega)]
  simp only [ok_bind, written]
  simp

theorem base64Encode_small (data out : List UInt8)
    (small : out.length < (encodeText data).length + 1) :
    base64Encode data out = .ok (-1, out) := by
  have length := length_encodeText data
  exact if_pos (by omega)

/-! ## Decoding -/

def stored (decodedLen : Nat) (base bytes : List UInt8) : List UInt8 × Nat :=
  (bytes.take decodedLen ++ base.drop (bytes.take decodedLen).length,
    (bytes.take decodedLen).length)

theorem store_stored (decodedLen : Nat) (base bytes : List UInt8) (byte : UInt8)
    (room : decodedLen ≤ base.length) :
    store decodedLen (stored decodedLen base bytes) byte =
      .ok (stored decodedLen base (bytes ++ [byte])) := by
  by_cases short : bytes.length < decodedLen
  · have all : bytes.take decodedLen = bytes := List.take_of_length_le (by omega)
    have more : (bytes ++ [byte]).take decodedLen = bytes ++ [byte] :=
      List.take_of_length_le (by
        rw [List.length_append, List.length_singleton]
        omega)
    have inside : bytes.length + [byte].length ≤ (bytes ++ base.drop bytes.length).length := by
      rw [List.length_append, List.length_drop, List.length_singleton]
      omega
    simp only [store, stored, all, more, if_pos short]
    rw [writeBytes_ok _ _ _ inside, List.take_left, ← List.drop_drop, List.drop_left,
      List.drop_drop, List.length_append]
    rfl
  · have full : (bytes.take decodedLen).length = decodedLen := by
      rw [List.length_take]
      omega
    have same : (bytes ++ [byte]).take decodedLen = bytes.take decodedLen :=
      List.take_append_of_le_length (by omega)
    simp only [store, stored, same, full, Nat.lt_irrefl, if_false]
    rfl

theorem decodeFrom_stored (decodedLen : Nat) (base : List UInt8)
    (room : decodedLen ≤ base.length) : ∀ (text bytes : List UInt8), text.length % 4 = 0 →
    decodeFrom decodedLen (stored decodedLen base bytes) text =
      .ok (stored decodedLen base (bytes ++ unpack (text.map sextetOf)))
  | a :: b :: c :: d :: rest, bytes, whole => by
      have less : rest.length % 4 = 0 := by
        simp only [List.length_cons] at whole
        omega
      have triple := triple_toNat a b c d
      simp only [decodeFrom]
      generalize (b64DecodeTable a).toUInt32 <<< 18 ||| (b64DecodeTable b).toUInt32 <<< 12 |||
        (b64DecodeTable c).toUInt32 <<< 6 ||| (b64DecodeTable d).toUInt32 = word at *
      have octet := byte_eq word 0 (by decide)
      have none : word >>> 0 = word := by simp
      rw [none] at octet
      have group : octets (ofSextets (sextetOf a) (sextetOf b) (sextetOf c) (sextetOf d)) =
          [((word >>> 16) &&& 0xFF).toUInt8, ((word >>> 8) &&& 0xFF).toUInt8,
            (word &&& 0xFF).toUInt8] := by
        rw [byte_eq word 16 (by decide), byte_eq word 8 (by decide), octet, triple]
        simp [octets]
      rw [store_stored _ _ _ _ room, ok_bind, store_stored _ _ _ _ room, ok_bind,
        store_stored _ _ _ _ room, ok_bind, decodeFrom_stored decodedLen base room rest _ less]
      simp only [List.map_cons, unpack, group, List.append_assoc, List.cons_append,
        List.nil_append]
  | [], bytes, _ => by
      simp only [decodeFrom, List.map_nil, unpack, List.append_nil]
      rfl
  | [_], _, whole => by simp at whole
  | [_, _], _, whole => by simp at whole
  | [_, _, _], _, whole => by simp at whole

/-! ## Texts that spell sextets -/

section Spelled

variable {text : List UInt8} {values : List (Fin 64)}

theorem spelled_pad (pads index : Nat)
    (spelled : text = values.map b64Letter ++ List.replicate pads equalsSign)
    (inside : index < text.length) :
    text.getD index 0 = equalsSign ↔ values.length ≤ index := by
  subst spelled
  rw [List.length_append, List.length_map, List.length_replicate] at inside
  rw [List.getD_eq_getElem?_getD]
  by_cases early : index < values.length
  · rw [List.getElem?_append_left (by rw [List.length_map]; exact early), List.getElem?_map,
      List.getElem?_eq_getElem early, Option.map_some, Option.getD_some]
    have other := letter_ne_equalsSign values[index]
    simp [other, early]
  · rw [List.getElem?_append_right (by rw [List.length_map]; omega), List.length_map,
      List.getElem?_replicate, if_pos (by omega), Option.getD_some]
    simp
    omega

theorem spelled_padCount (pads : Nat) (few : pads ≤ 2)
    (spelled : text = values.map b64Letter ++ List.replicate pads equalsSign)
    (group : 4 ≤ text.length) : padCount text = pads := by
  have length : text.length = values.length + pads := by
    rw [spelled, List.length_append, List.length_map, List.length_replicate]
  have last := spelled_pad pads (text.length - 1) spelled (by omega)
  have second := spelled_pad pads (text.length - 2) spelled (by omega)
  rw [padCount, if_congr last rfl rfl, if_congr (and_congr Iff.rfl second) rfl rfl]
  split <;> split <;> omega

theorem spelled_valid (spells : Spells b64Letter equalsSign text values) :
    text.all b64ValidChar = true := by
  obtain ⟨_, pads, _, rfl⟩ := spells
  rw [List.all_eq_true]
  intro c member
  rcases List.mem_append.mp member with letter | pad
  · obtain ⟨k, _, rfl⟩ := List.mem_map.mp letter
    exact letter_valid k
  · rw [List.eq_of_mem_replicate pad]
    exact (validChar_iff equalsSign).mpr (.inl rfl)

theorem spelled_sextets (pads : Nat)
    (spelled : text = values.map b64Letter ++ List.replicate pads equalsSign) :
    text.map sextetOf = values ++ List.replicate pads 0 := by
  have back : (values.map b64Letter).map sextetOf = values := by
    rw [List.map_map]
    exact List.map_id'' sextetOf_letter values
  rw [spelled, List.map_append, back, List.map_replicate, sextetOf_equalsSign]

theorem spelled_decodedLen (pads : Nat) (few : pads ≤ 2)
    (whole : (values.length + pads) % 4 = 0) :
    (values.length + pads) / 4 * 3 - pads = (unpack values).length := by
  rw [length_unpack]
  omega

theorem base64Decode_spelled (spells : Spells b64Letter equalsSign text values)
    (out : List UInt8) :
    base64Decode text out =
      if out.length < (unpack values).length then .ok (-1, out)
      else .ok ((unpack values).length, unpack values ++ out.drop (unpack values).length) := by
  have valid := spelled_valid spells
  obtain ⟨whole, pads, few, spelled⟩ := spells
  have length : text.length = values.length + pads := by
    rw [spelled, List.length_append, List.length_map, List.length_replicate]
  by_cases empty : text.length = 0
  · have none : values = [] := List.eq_nil_of_length_eq_zero (by omega)
    rw [base64Decode, if_pos empty, none]
    simp [unpack]
  · rw [length] at whole
    have decoded := spelled_decodedLen pads few whole
    have filled := unpack_zeros values pads few whole
    rw [decoded] at filled
    rw [base64Decode, if_neg empty, if_neg (by rw [length, whole]; decide),
      if_neg (by rw [valid]; decide), spelled_padCount pads few spelled (by omega), length]
    dsimp only
    rw [decoded]
    split
    · rfl
    · have start : stored (unpack values).length out [] = (out, 0) := by simp [stored]
      have written := decodeFrom_stored (unpack values).length out (by omega) text []
        (by rw [length, whole])
      rw [start, spelled_sextets pads spelled, List.nil_append] at written
      rw [written, ok_bind, stored, filled]
      rfl

end Spelled

/-! ## There and back -/

/-- What is encoded decodes to itself, for every pair of buffers. -/
theorem base64_round_trip (data out dst : List UInt8) :
    if out.length < 4 * ((data.length + 2) / 3) + 1 then base64Encode data out = .ok (-1, out)
    else ∃ text : List UInt8, text.length = 4 * ((data.length + 2) / 3) ∧ 0 ∉ text ∧
      base64Encode data out = .ok (text.length, text ++ 0 :: out.drop (text.length + 1)) ∧
      base64Decode text dst =
        if dst.length < data.length then .ok (-1, dst)
        else .ok (data.length, data ++ dst.drop data.length) := by
  have length := length_encodeText data
  split
  · exact base64Encode_small data out (by omega)
  · have spells : Spells b64Letter equalsSign (encodeText data) (pack data) := encode_spells data
    refine ⟨encodeText data, length, ?_, base64Encode_ok data out (by omega), ?_⟩
    · intro member
      have valid := List.all_eq_true.mp (spelled_valid spells) 0 member
      exact absurd valid (by decide)
    · have decoded := base64Decode_spelled spells dst
      rw [unpack_pack] at decoded
      exact decoded

/-! ## What the decoder accepts -/

/-- There are at most two pads and they are the last characters. -/
def PadsAtEnd (text : List UInt8) : Prop :=
  text.count equalsSign ≤ 2 ∧ equalsSign ∉ text.take (text.length - text.count equalsSign)

instance : DecidablePred PadsAtEnd := fun text =>
  inferInstanceAs (Decidable (text.count equalsSign ≤ 2 ∧ _))

/-- The decoder accepts the padded texts of RFC 4648 and decodes these. -/
def DecodesRfc4648 (text out : List UInt8) : Prop :=
  ∃ ret written, base64Decode text out = .ok (ret, written) ∧
    (0 ≤ ret ↔ ∃ values, Spells b64Letter equalsSign text values) ∧
    ∀ values, Spells b64Letter equalsSign text values →
      ret = (unpack values).length ∧ written = unpack values ++ out.drop (unpack values).length

theorem letters_no_pad (values : List (Fin 64)) : equalsSign ∉ values.map b64Letter := by
  intro member
  obtain ⟨k, _, same⟩ := List.mem_map.mp member
  exact letter_ne_equalsSign k same

theorem spells_padsAtEnd {text : List UInt8} {values : List (Fin 64)}
    (spells : Spells b64Letter equalsSign text values) : PadsAtEnd text := by
  obtain ⟨_, pads, few, rfl⟩ := spells
  have count : (values.map b64Letter ++ List.replicate pads equalsSign).count equalsSign =
      pads := by
    rw [List.count_append, List.count_eq_zero.mpr (letters_no_pad values),
      List.count_replicate_self, Nat.zero_add]
  constructor
  · rw [count]
    exact few
  · rw [count, List.length_append, List.length_replicate, Nat.add_sub_cancel, List.take_left]
    exact letters_no_pad values

theorem padsAtEnd_spells {text : List UInt8} (whole : text.length % 4 = 0)
    (valid : text.all b64ValidChar = true) (ends : PadsAtEnd text) :
    ∃ values, Spells b64Letter equalsSign text values := by
  obtain ⟨few, front⟩ := ends
  have split := List.take_append_drop (text.length - text.count equalsSign) text
  have bound : text.count equalsSign ≤ text.length := List.count_le_length
  set letters := text.take (text.length - text.count equalsSign)
  set pads := text.drop (text.length - text.count equalsSign) with rest
  have length : pads.length = text.count equalsSign := by
    rw [rest, List.length_drop]
    omega
  have all : pads.count equalsSign = pads.length := by
    rw [length, ← split, List.count_append, List.count_eq_zero.mpr front, Nat.zero_add]
  have same : pads = List.replicate pads.length equalsSign :=
    List.eq_replicate_iff.mpr ⟨rfl, fun c member => (List.count_eq_length.mp all c member).symm⟩
  have back : (letters.map sextetOf).map b64Letter = letters := by
    rw [List.map_map]
    refine (List.map_congr_left fun c member => ?_).trans (List.map_id letters)
    have one := List.all_eq_true.mp valid c (List.mem_of_mem_take member)
    rcases (validChar_iff c).mp one with pad | letter
    · exact absurd (pad ▸ member) front
    · exact letter
  refine ⟨letters.map sextetOf, whole, pads.length, by omega, ?_⟩
  rw [back, ← same, split]

theorem base64Decode_accepts (text out : List UInt8) (whole : text.length % 4 = 0)
    (valid : text.all b64ValidChar = true) (room : text.length / 4 * 3 ≤ out.length) :
    ∃ (length : Nat) (written : List UInt8), base64Decode text out = .ok (length, written) := by
  by_cases empty : text.length = 0
  · exact ⟨0, out, if_pos empty⟩
  · have start : stored (text.length / 4 * 3 - padCount text) out [] = (out, 0) := by
      simp [stored]
    have written := decodeFrom_stored (text.length / 4 * 3 - padCount text) out (by omega) text []
      whole
    rw [start] at written
    rw [base64Decode, if_neg empty, if_neg (by rw [whole]; decide), if_neg (by rw [valid]; decide)]
    dsimp only
    rw [if_neg (by omega), written, ok_bind]
    exact ⟨_, _, rfl⟩

theorem base64Decode_rejects (text out : List UInt8) (nonempty : text.length ≠ 0)
    (wrong : ¬ (text.length % 4 = 0 ∧ text.all b64ValidChar = true)) :
    base64Decode text out = .ok (-1, out) := by
  rw [base64Decode, if_neg nonempty]
  split
  · rfl
  · rename_i whole
    rw [if_pos (fun valid => wrong ⟨by omega, valid⟩)]
    rfl

/-- The decoder does not look where the pads are. -/
theorem decodesRfc4648_iff (text out : List UInt8) (room : text.length / 4 * 3 ≤ out.length) :
    DecodesRfc4648 text out ↔
      (text.length % 4 = 0 → text.all b64ValidChar = true → PadsAtEnd text) := by
  constructor
  · intro decodes whole valid
    obtain ⟨ret, written, run, accepts, _⟩ := decodes
    obtain ⟨length, out, same⟩ := base64Decode_accepts text out whole valid room
    rw [run, Except.ok.injEq, Prod.mk.injEq] at same
    obtain ⟨values, spells⟩ := accepts.mp (same.1 ▸ Int.natCast_nonneg length)
    exact spells_padsAtEnd spells
  · intro ends
    by_cases spelled : ∃ values, Spells b64Letter equalsSign text values
    · have decoded {values : List (Fin 64)} (spells : Spells b64Letter equalsSign text values) :
          base64Decode text out = .ok ((unpack values).length,
            unpack values ++ out.drop (unpack values).length) := by
        have run := base64Decode_spelled spells out
        obtain ⟨whole, pads, _, same⟩ := spells
        have length := congrArg List.length same
        rw [List.length_append, List.length_map, List.length_replicate] at length
        rw [if_neg (by rw [length_unpack]; omega)] at run
        exact run
      obtain ⟨values, spells⟩ := spelled
      refine ⟨_, _, decoded spells, ⟨fun _ => ⟨values, spells⟩, fun _ => Int.natCast_nonneg _⟩, ?_⟩
      intro others also
      have same := (decoded spells).symm.trans (decoded also)
      rw [Except.ok.injEq, Prod.mk.injEq] at same
      exact same
    · have nonempty : text.length ≠ 0 := by
        intro empty
        have none : text = [] := List.eq_nil_of_length_eq_zero empty
        exact spelled ⟨[], by simp [empty], 0, by decide, by simp [none]⟩
      have rejected := base64Decode_rejects text out nonempty (by
        intro both
        exact spelled (padsAtEnd_spells both.1 both.2 (ends both.1 both.2)))
      refine ⟨-1, out, rejected, ⟨fun positive => absurd positive (by decide), fun some =>
        absurd some spelled⟩, ?_⟩
      intro values spells
      exact absurd ⟨values, spells⟩ spelled

theorem decodesRfc4648_padded :
    DecodesRfc4648 (encodeText [1, 2]) [0, 0, 0] ↔
      ((encodeText [1, 2]).length % 4 = 0 → (encodeText [1, 2]).all b64ValidChar = true →
        PadsAtEnd (encodeText [1, 2])) := by
  exact decodesRfc4648_iff (encodeText [1, 2]) [0, 0, 0] (by decide)

/-- "AB=C", with a pad before a letter. -/
def strayPad : List UInt8 := [65, 66, 61, 67]

theorem strayPad_decodes : base64Decode strayPad [0, 0, 0] = .ok (2, [0, 16, 0]) := by
  decide +kernel

theorem stray_pad_accepted : ¬ DecodesRfc4648 strayPad [0, 0, 0] := by
  rintro ⟨ret, written, run, accepts, _⟩
  rw [strayPad_decodes, Except.ok.injEq, Prod.mk.injEq] at run
  obtain ⟨values, spells⟩ := accepts.mp (by rw [← run.1]; decide)
  exact absurd (spells_padsAtEnd spells) (by decide)

end Compy.Srtp
