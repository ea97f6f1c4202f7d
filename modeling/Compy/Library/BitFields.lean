import Mathlib.Algebra.Order.Group.Nat

/-!
# Fields of a byte

What shifts, masks and alternatives do to the number that a byte stands for, as long as
the parts that are put together do not overlap.
-/

set_option autoImplicit false

namespace BitFields

/-- The number in the `width` bits from bit `low` on. -/
def field (byte : UInt8) (low width : Nat) : Nat := byte.toNat / 2 ^ low % 2 ^ width

theorem toNat_shiftLeft (byte shift : UInt8) (small : shift.toNat < 8)
    (fits : byte.toNat < 2 ^ (8 - shift.toNat)) :
    (byte <<< shift).toNat = byte.toNat * 2 ^ shift.toNat := by
  rw [UInt8.toNat_shiftLeft, Nat.mod_eq_of_lt small, Nat.shiftLeft_eq]
  apply Nat.mod_eq_of_lt
  have room : 2 ^ (8 - shift.toNat) * 2 ^ shift.toNat = 2 ^ 8 := by
    rw [← Nat.pow_add, Nat.sub_add_cancel (Nat.le_of_lt small)]
  rw [← room]
  exact Nat.mul_lt_mul_of_pos_right fits (Nat.two_pow_pos _)

theorem toNat_or (high low : UInt8) (width : Nat) (aligned : 2 ^ width ∣ high.toNat)
    (below : low.toNat < 2 ^ width) : (high ||| low).toNat = high.toNat + low.toNat := by
  obtain ⟨count, same⟩ := aligned
  rw [UInt8.toNat_or, same, ← Nat.two_pow_add_eq_or_of_lt below]

theorem toNat_and_low (byte mask : UInt8) (width : Nat) (low : mask.toNat = 2 ^ width - 1) :
    (byte &&& mask).toNat = byte.toNat % 2 ^ width := by
  rw [UInt8.toNat_and, low, Nat.and_two_pow_sub_one_eq_mod]

theorem toNat_and_shiftRight (byte mask shift : UInt8) (width : Nat) (small : shift.toNat < 8)
    (window : mask.toNat >>> shift.toNat = 2 ^ width - 1) :
    ((byte &&& mask) >>> shift).toNat = field byte shift.toNat width := by
  rw [UInt8.toNat_shiftRight, Nat.mod_eq_of_lt small, UInt8.toNat_and,
    Nat.shiftRight_and_distrib, window, Nat.and_two_pow_sub_one_eq_mod,
    Nat.shiftRight_eq_div_pow, field]

end BitFields
