import Mathlib.Data.List.Basic

/-!
# Comparison without an early exit

Two byte strings are compared by the alternative of all their differences: it is zero
exactly when no difference is left.
-/

set_option autoImplicit false

namespace ConstantTime

theorem foldl_or_eq_zero {ι : Type} (byte : ι → UInt8) (places : List ι) (start : UInt8) :
    places.foldl (fun diff place => diff ||| byte place) start = 0 ↔
      start = 0 ∧ ∀ place ∈ places, byte place = 0 := by
  induction places generalizing start with
  | nil => simp
  | cons place places ih =>
      rw [List.foldl_cons, ih, UInt8.or_eq_zero_iff, List.forall_mem_cons, and_assoc]

theorem zipWith_xor_zero (left right : List UInt8) (same : left.length = right.length) :
    (∀ byte ∈ List.zipWith (· ^^^ ·) left right, byte = 0) ↔ left = right := by
  induction left generalizing right with
  | nil =>
      have empty : right = [] := List.length_eq_zero_iff.mp same.symm
      simp [empty]
  | cons byte rest ih =>
      cases right with
      | nil => simp at same
      | cons byte' rest' =>
          rw [List.zipWith_cons_cons, List.forall_mem_cons, ih rest' (by simpa using same),
            UInt8.xor_eq_zero_iff, List.cons.injEq]

end ConstantTime
