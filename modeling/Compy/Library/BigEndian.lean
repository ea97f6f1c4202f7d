import Mathlib.Data.List.Basic
import Mathlib.Tactic.Ring

/-!
# Big-endian words

Network byte order for 16-bit and 32-bit words over byte lists.  The encoders
are the shifts a C program writes; the decoders read the first bytes of a list
and are only meant for lists long enough.

`store16` and `load16` are the memory of a little-endian host.  There `htons`
gives the word whose memory is the big-endian form of its argument, so storing
it writes network order, and loading a word and swapping it back is `word16`.
-/

set_option autoImplicit false

namespace BigEndian

def be16 (x : UInt16) : List UInt8 := [(x >>> 8).toUInt8, x.toUInt8]

def be32 (x : UInt32) : List UInt8 :=
  [(x >>> 24).toUInt8, (x >>> 16).toUInt8, (x >>> 8).toUInt8, x.toUInt8]

def word16 (bytes : List UInt8) : UInt16 :=
  UInt16.ofNat (256 * (bytes.getD 0 0).toNat + (bytes.getD 1 0).toNat)

def word32 (bytes : List UInt8) : UInt32 :=
  UInt32.ofNat (16777216 * (bytes.getD 0 0).toNat + 65536 * (bytes.getD 1 0).toNat +
    256 * (bytes.getD 2 0).toNat + (bytes.getD 3 0).toNat)

@[simp] theorem length_be32 (x : UInt32) : (be32 x).length = 4 := rfl

theorem toNat_byte16 (x : UInt16) (shift : UInt16) (small : shift.toNat < 16) :
    (x >>> shift).toUInt8.toNat = x.toNat / 2 ^ shift.toNat % 256 := by
  simp [UInt16.toNat_shiftRight, Nat.mod_eq_of_lt small, Nat.shiftRight_eq_div_pow]

theorem toNat_byte32 (x : UInt32) (shift : UInt32) (small : shift.toNat < 32) :
    (x >>> shift).toUInt8.toNat = x.toNat / 2 ^ shift.toNat % 256 := by
  simp [UInt32.toNat_shiftRight, Nat.mod_eq_of_lt small, Nat.shiftRight_eq_div_pow]

theorem word16_be16 (x : UInt16) (rest : List UInt8) : word16 (be16 x ++ rest) = x := by
  have bound := x.toNat_lt
  have high := toNat_byte16 x 8 (by decide)
  apply UInt16.toNat_inj.mp
  simp only [word16, be16, List.cons_append, List.getD_cons_zero, List.getD_cons_succ,
    UInt16.toNat_ofNat', UInt16.toNat_toUInt8, high]
  simp only [UInt16.reduceToNat]
  omega

theorem word32_be32 (x : UInt32) (rest : List UInt8) : word32 (be32 x ++ rest) = x := by
  have bound := x.toNat_lt
  have top := toNat_byte32 x 24 (by decide)
  have high := toNat_byte32 x 16 (by decide)
  have low := toNat_byte32 x 8 (by decide)
  apply UInt32.toNat_inj.mp
  simp only [word32, be32, List.cons_append, List.getD_cons_zero, List.getD_cons_succ,
    UInt32.toNat_ofNat', UInt32.toNat_toUInt8, top, high, low]
  simp only [UInt32.reduceToNat]
  omega

theorem shifted_eq_word16 (high low : UInt8) (rest : List UInt8) :
    high.toUInt16 <<< 8 ||| low.toUInt16 = word16 (high :: low :: rest) := by
  have bound := high.toNat_lt
  have below : low.toNat < 2 ^ 8 := low.toNat_lt
  apply UInt16.toNat_inj.mp
  rw [UInt16.toNat_or, UInt16.toNat_shiftLeft, UInt8.toNat_toUInt16, UInt8.toNat_toUInt16]
  simp only [UInt16.reduceToNat, Nat.reduceMod, word16, List.getD_cons_zero, List.getD_cons_succ,
    UInt16.toNat_ofNat']
  rw [Nat.mod_eq_of_lt (by rw [Nat.shiftLeft_eq]; omega), ← Nat.shiftLeft_add_eq_or_of_lt below,
    Nat.shiftLeft_eq]
  omega

theorem word16_take (bytes : List UInt8) (count : Nat) (enough : 2 ≤ count) :
    word16 (bytes.take count) = word16 bytes := by
  simp only [word16, List.getD_eq_getElem?_getD, List.getElem?_take]
  rw [if_pos (by omega), if_pos (by omega)]

theorem word32_take (bytes : List UInt8) (count : Nat) (enough : 4 ≤ count) :
    word32 (bytes.take count) = word32 bytes := by
  simp only [word32, List.getD_eq_getElem?_getD, List.getElem?_take]
  rw [if_pos (by omega), if_pos (by omega), if_pos (by omega), if_pos (by omega)]

theorem word16_drop_congr (left right : List UInt8) (offset count : Nat)
    (inside : offset + 2 ≤ count) (same : left.take count = right.take count) :
    word16 (left.drop offset) = word16 (right.drop offset) := by
  have bytes := congrArg (fun bytes => (bytes.drop offset).take 2) same
  simp only [List.drop_take, List.take_take] at bytes
  rw [Nat.min_eq_left (by omega)] at bytes
  rw [← word16_take _ 2 (by decide), bytes, word16_take _ 2 (by decide)]

theorem word32_drop_congr (left right : List UInt8) (offset count : Nat)
    (inside : offset + 4 ≤ count) (same : left.take count = right.take count) :
    word32 (left.drop offset) = word32 (right.drop offset) := by
  have bytes := congrArg (fun bytes => (bytes.drop offset).take 4) same
  simp only [List.drop_take, List.take_take] at bytes
  rw [Nat.min_eq_left (by omega)] at bytes
  rw [← word32_take _ 4 (by decide), bytes, word32_take _ 4 (by decide)]

/-! ## Words in network order on a little-endian host -/

def store16 (x : UInt16) : List UInt8 := [x.toUInt8, (x >>> 8).toUInt8]

def store32 (x : UInt32) : List UInt8 :=
  [x.toUInt8, (x >>> 8).toUInt8, (x >>> 16).toUInt8, (x >>> 24).toUInt8]

def load16 (bytes : List UInt8) : UInt16 := word16 (bytes.take 2).reverse

def load32 (bytes : List UInt8) : UInt32 := word32 (bytes.take 4).reverse

def htons (x : UInt16) : UInt16 := load16 (be16 x)

def htonl (x : UInt32) : UInt32 := load32 (be32 x)

theorem be16_word16 (a b : UInt8) : be16 (word16 [a, b]) = [a, b] := by
  have high := toNat_byte16 (word16 [a, b]) 8 (by decide)
  have left := a.toNat_lt
  have right := b.toNat_lt
  simp only [be16, List.cons.injEq, and_true, ← UInt8.toNat_inj, high, UInt16.toNat_toUInt8]
  simp only [word16, List.getD_cons_zero, List.getD_cons_succ, UInt16.toNat_ofNat',
    UInt16.reduceToNat]
  omega

theorem be32_word32 (a b c d : UInt8) : be32 (word32 [a, b, c, d]) = [a, b, c, d] := by
  have top := toNat_byte32 (word32 [a, b, c, d]) 24 (by decide)
  have high := toNat_byte32 (word32 [a, b, c, d]) 16 (by decide)
  have low := toNat_byte32 (word32 [a, b, c, d]) 8 (by decide)
  have first := a.toNat_lt
  have second := b.toNat_lt
  have third := c.toNat_lt
  have last := d.toNat_lt
  simp only [be32, List.cons.injEq, and_true, ← UInt8.toNat_inj, top, high, low,
    UInt32.toNat_toUInt8]
  simp only [word32, List.getD_cons_zero, List.getD_cons_succ, UInt32.toNat_ofNat',
    UInt32.reduceToNat]
  omega

theorem store16_htons (x : UInt16) : store16 (htons x) = be16 x := by
  have swapped := be16_word16 x.toUInt8 (x >>> 8).toUInt8
  have memory : store16 (htons x) = (be16 (htons x)).reverse := rfl
  rw [memory]
  change (be16 (word16 [x.toUInt8, (x >>> 8).toUInt8])).reverse = _
  rw [swapped]
  rfl

theorem store32_htonl (x : UInt32) : store32 (htonl x) = be32 x := by
  have swapped := be32_word32 x.toUInt8 (x >>> 8).toUInt8 (x >>> 16).toUInt8 (x >>> 24).toUInt8
  have memory : store32 (htonl x) = (be32 (htonl x)).reverse := rfl
  rw [memory]
  change (be32 (word32 [x.toUInt8, (x >>> 8).toUInt8, (x >>> 16).toUInt8,
    (x >>> 24).toUInt8])).reverse = _
  rw [swapped]
  rfl

theorem htons_load16 (a b : UInt8) : htons (load16 [a, b]) = word16 [a, b] := by
  change word16 (be16 (word16 [b, a])).reverse = _
  rw [be16_word16]
  rfl

theorem htonl_load32 (a b c d : UInt8) : htonl (load32 [a, b, c, d]) = word32 [a, b, c, d] := by
  change word32 (be32 (word32 [d, c, b, a])).reverse = _
  rw [be32_word32]
  rfl

theorem htons_htons (x : UInt16) : htons (htons x) = x :=
  (htons_load16 _ _).trans (word16_be16 x [])

theorem htonl_htonl (x : UInt32) : htonl (htonl x) = x :=
  (htonl_load32 _ _ _ _).trans (word32_be32 x [])

theorem be16_htons (x : UInt16) : be16 (htons x) = store16 x := by
  rw [← store16_htons, htons_htons]

theorem be32_htonl (x : UInt32) : be32 (htonl x) = store32 x := by
  rw [← store32_htonl, htonl_htonl]

theorem load32_store32 (x : UInt32) (rest : List UInt8) : load32 (store32 x ++ rest) = x := by
  have memory : load32 (store32 x ++ rest) = word32 (be32 x ++ []) := rfl
  rw [memory, word32_be32]

theorem toNat_htons (x : UInt16) : (htons x).toNat = 256 * (x.toNat % 256) + x.toNat / 256 := by
  have high := toNat_byte16 x 8 (by decide)
  have bound := x.toNat_lt
  have memory : htons x = word16 [x.toUInt8, (x >>> 8).toUInt8] := rfl
  have small : x.toNat / 256 < 256 := Nat.div_lt_of_lt_mul bound
  simp only [UInt16.reduceToNat, Nat.reducePow, Nat.mod_eq_of_lt small] at high
  simp only [memory, word16, List.getD_cons_zero, List.getD_cons_succ, UInt16.toNat_ofNat', high,
    UInt16.toNat_toUInt8]
  omega

theorem htons_eq_self_iff (x : UInt16) : htons x = x ↔ x.toNat / 256 = x.toNat % 256 := by
  rw [← UInt16.toNat_inj, toNat_htons]
  omega

end BigEndian
