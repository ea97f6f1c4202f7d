import Mathlib.Algebra.Group.Nat.Defs
import Mathlib.Data.List.Basic

/-!
# Base 64

Three bytes are the same 24 bits as four sextets.  What is left over at the end is filled up
with zero bits on one side and dropped on the other (RFC 4648, section 4).  A text spells
sextets by the letters of an alphabet, with pads to the next multiple of four.
-/

set_option autoImplicit false

namespace Base64

def sextets (n : Nat) : List (Fin 64) :=
  [Fin.ofNat 64 (n / 262144), Fin.ofNat 64 (n / 4096), Fin.ofNat 64 (n / 64), Fin.ofNat 64 n]

def octets (n : Nat) : List UInt8 :=
  [UInt8.ofNat (n / 65536), UInt8.ofNat (n / 256), UInt8.ofNat n]

def ofOctets (x y z : UInt8) : Nat := 65536 * x.toNat + 256 * y.toNat + z.toNat

def ofSextets (a b c d : Fin 64) : Nat := 262144 * a.val + 4096 * b.val + 64 * c.val + d.val

def pack : List UInt8 → List (Fin 64)
  | x :: y :: z :: rest => sextets (ofOctets x y z) ++ pack rest
  | [x, y] => (sextets (ofOctets x y 0)).take 3
  | [x] => (sextets (ofOctets x 0 0)).take 2
  | [] => []

def unpack : List (Fin 64) → List UInt8
  | a :: b :: c :: d :: rest => octets (ofSextets a b c d) ++ unpack rest
  | [a, b, c] => (octets (ofSextets a b c 0)).take 2
  | [a, b] => (octets (ofSextets a b 0 0)).take 1
  | [_] => []
  | [] => []

theorem sextets_ofOctets (x y z : UInt8) : ∃ a b c d : Fin 64,
    sextets (ofOctets x y z) = [a, b, c, d] ∧ ofSextets a b c d = ofOctets x y z := by
  refine ⟨_, _, _, _, rfl, ?_⟩
  have := x.toNat_lt
  have := y.toNat_lt
  have := z.toNat_lt
  simp only [ofSextets, ofOctets, Fin.val_ofNat]
  omega

theorem octets_ofOctets (x y z : UInt8) : octets (ofOctets x y z) = [x, y, z] := by
  have := x.toNat_lt
  have := y.toNat_lt
  have := z.toNat_lt
  simp only [octets, ofOctets, List.cons.injEq, ← UInt8.toNat_inj, UInt8.toNat_ofNat', and_true]
  omega

theorem ofOctets_last (x y : UInt8) : Fin.ofNat 64 (ofOctets x y 0) = 0 := by
  apply Fin.ext
  simp only [Fin.val_ofNat, ofOctets, UInt8.toNat_zero, Fin.val_zero]
  omega

theorem ofOctets_middle (x : UInt8) : Fin.ofNat 64 (ofOctets x 0 0 / 64) = 0 := by
  apply Fin.ext
  simp only [Fin.val_ofNat, ofOctets, UInt8.toNat_zero, Fin.val_zero]
  omega

theorem unpack_pack (data : List UInt8) : unpack (pack data) = data := by
  induction data using pack.induct with
  | case1 x y z rest ih =>
      obtain ⟨a, b, c, d, group, same⟩ := sextets_ofOctets x y z
      rw [pack, group]
      simp only [List.cons_append, List.nil_append, unpack]
      rw [same, octets_ofOctets, ih]
      rfl
  | case2 x y =>
      obtain ⟨a, b, c, d, group, same⟩ := sextets_ofOctets x y 0
      have last : d = 0 := by
        simp only [sextets, List.cons.injEq] at group
        rw [← group.2.2.2.1, ofOctets_last]
      rw [pack, group]
      simp only [List.take_succ_cons, List.take_zero, unpack]
      rw [← last, same, octets_ofOctets]
      rfl
  | case3 x =>
      obtain ⟨a, b, c, d, group, same⟩ := sextets_ofOctets x 0 0
      simp only [sextets, List.cons.injEq] at group
      have middle : c = 0 := by rw [← group.2.2.1, ofOctets_middle]
      have last : d = 0 := by rw [← group.2.2.2.1, ofOctets_last]
      rw [pack, sextets, group.1, group.2.1]
      simp only [List.take_succ_cons, List.take_zero, unpack]
      have whole : ofSextets a b 0 0 = ofOctets x 0 0 := by rw [← same, middle, last]
      rw [whole, octets_ofOctets]
      rfl
  | case4 => rfl

theorem length_unpack (values : List (Fin 64)) :
    (unpack values).length = values.length * 3 / 4 := by
  induction values using unpack.induct with
  | case1 a b c d rest ih =>
      simp only [unpack, List.length_append, ih, octets, List.length_cons, List.length_nil]
      omega
  | case2 a b c => simp [unpack, octets]
  | case3 a b => simp [unpack, octets]
  | case4 a => simp [unpack]
  | case5 => simp [unpack]

theorem unpack_zeros (values : List (Fin 64)) (pads : Nat) (few : pads ≤ 2)
    (whole : (values.length + pads) % 4 = 0) :
    (unpack (values ++ List.replicate pads 0)).take ((values.length + pads) / 4 * 3 - pads) =
      unpack values := by
  induction values using unpack.induct with
  | case1 a b c d rest ih =>
      have less := ih (by
        simp only [List.length_cons] at whole
        omega)
      have length : ((a :: b :: c :: d :: rest).length + pads) / 4 * 3 - pads =
          (octets (ofSextets a b c d)).length + ((rest.length + pads) / 4 * 3 - pads) := by
        simp only [List.length_cons, octets, List.length_nil] at whole ⊢
        omega
      simp only [List.cons_append, unpack]
      rw [length, List.take_length_add_append, less]
  | case2 a b c =>
      have one : pads = 1 := by
        simp only [List.length_cons, List.length_nil] at whole
        omega
      subst one
      simp [unpack, octets]
  | case3 a b =>
      have two : pads = 2 := by
        simp only [List.length_cons, List.length_nil] at whole
        omega
      subst two
      simp [unpack, octets]
  | case4 a =>
      simp only [List.length_cons, List.length_nil] at whole
      omega
  | case5 =>
      have none : pads = 0 := by
        simp only [List.length_nil] at whole
        omega
      subst none
      simp [unpack]

/-! ## Texts -/

variable {χ : Type} (letter : Fin 64 → χ) (pad : χ)

/-- The pads that complete a group of four after data of this length. -/
def padding (length : Nat) : Nat := (3 - length % 3) % 3

def encode (data : List UInt8) : List χ :=
  (pack data).map letter ++ List.replicate (padding data.length) pad

/-- The letters of the sextets and at most two pads that complete the last group of four. -/
def Spells (text : List χ) (values : List (Fin 64)) : Prop :=
  text.length % 4 = 0 ∧
    ∃ pads ≤ 2, text = values.map letter ++ List.replicate pads pad

variable {letter pad}

theorem encode_group (x y z : UInt8) (rest : List UInt8) :
    encode letter pad (x :: y :: z :: rest) =
      (sextets (ofOctets x y z)).map letter ++ encode letter pad rest := by
  have same : padding (x :: y :: z :: rest).length = padding rest.length := by
    simp only [padding, List.length_cons]
    omega
  rw [encode, same, pack, List.map_append, List.append_assoc, encode]

theorem length_encode (data : List UInt8) :
    (encode letter pad data).length = 4 * ((data.length + 2) / 3) := by
  induction data using pack.induct with
  | case1 x y z rest ih =>
      rw [encode_group, List.length_append, ih]
      simp only [sextets, List.length_map, List.length_cons, List.length_nil]
      omega
  | case2 x y => simp [encode, pack, sextets, padding]
  | case3 x => simp [encode, pack, sextets, padding]
  | case4 => rfl

theorem encode_spells (data : List UInt8) :
    Spells letter pad (encode letter pad data) (pack data) := by
  refine ⟨?_, padding data.length, ?_, rfl⟩
  · rw [length_encode]
    omega
  · unfold padding
    omega

end Base64
