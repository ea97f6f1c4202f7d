import Mathlib.Tactic.Ring
import Mathlib.Order.Basic

/-!
# Extended indices carried by short counters

A sender numbers its packets without bound and puts only the low part of the
number on the wire.  With a wire counter of `2 * half` values a receiver that
knows the highest number so far recovers the high part of any number less than
`half` away from it.  A sender that sees only the short counter recovers the
high part by counting wraps.
-/

set_option autoImplicit false

namespace ExtendedIndex

/-- The rule of RFC 3711: compare the short counter with the low part of the
highest number and move the high part by one when they are far apart. -/
def guess (half high low short : Nat) : Nat :=
  if low < half then
    if low + half < short then high - 1 else high
  else if short < low - half then high + 1
  else high

theorem guess_le_succ (half high low short : Nat) : guess half high low short ≤ high + 1 := by
  unfold guess
  split <;> split <;> omega

theorem guess_exact (half highest index : Nat)
    (behind : highest < index + half) (ahead : index < highest + half) :
    guess half (highest / (2 * half)) (highest % (2 * half)) (index % (2 * half)) =
      index / (2 * half) := by
  have positive : 0 < 2 * half := by omega
  have lowBound := Nat.mod_lt highest positive
  have shortBound := Nat.mod_lt index positive
  have highSplit := Nat.div_add_mod highest (2 * half)
  have indexSplit := Nat.div_add_mod index (2 * half)
  generalize highest / (2 * half) = high at *
  generalize highest % (2 * half) = low at *
  generalize index / (2 * half) = round at *
  generalize index % (2 * half) = short at *
  unfold guess
  rcases Nat.lt_trichotomy round high with before | rfl | after
  · have step := Nat.mul_le_mul_left (2 * half) (Nat.succ_le_of_lt before)
    rw [Nat.succ_eq_add_one, Nat.mul_add, Nat.mul_one] at step
    have previous : high = round + 1 := by
      by_contra far
      have twice := Nat.mul_le_mul_left (2 * half) (show round + 2 ≤ high by omega)
      rw [Nat.mul_add] at twice
      omega
    subst previous
    rw [Nat.mul_add, Nat.mul_one] at highSplit
    rw [if_pos (by omega), if_pos (by omega)]
    omega
  · split
    · rw [if_neg (by omega)]
    · rw [if_neg (by omega)]
  · have step := Nat.mul_le_mul_left (2 * half) (Nat.succ_le_of_lt after)
    rw [Nat.succ_eq_add_one, Nat.mul_add, Nat.mul_one] at step
    have next : round = high + 1 := by
      by_contra far
      have twice := Nat.mul_le_mul_left (2 * half) (show high + 2 ≤ round by omega)
      rw [Nat.mul_add] at twice
      omega
    subst next
    rw [Nat.mul_add, Nat.mul_one] at indexSplit
    rw [if_neg (by omega), if_pos (by omega)]

/-- The sender's rule: a counter that falls by at least `half` has wrapped. -/
def rollover (half high previous short : Nat) : Nat :=
  if short < previous ∧ half ≤ previous - short then high + 1 else high

theorem rollover_exact (half previous index : Nat) (ordered : previous ≤ index)
    (close : index < previous + half ∨ index / (2 * half) = previous / (2 * half)) :
    rollover half (previous / (2 * half)) (previous % (2 * half)) (index % (2 * half)) =
      index / (2 * half) := by
  have previousSplit := Nat.div_add_mod previous (2 * half)
  have indexSplit := Nat.div_add_mod index (2 * half)
  unfold rollover
  by_cases round : index / (2 * half) = previous / (2 * half)
  · rw [if_neg]
    · exact round.symm
    · rw [round] at indexSplit
      omega
  · have near : index < previous + half := close.resolve_right round
    have positive : 0 < 2 * half := by omega
    have previousBound := Nat.mod_lt previous positive
    have indexBound := Nat.mod_lt index positive
    have later : previous / (2 * half) < index / (2 * half) :=
      Nat.lt_of_le_of_ne (Nat.div_le_div_right ordered) (Ne.symm round)
    generalize previous / (2 * half) = high at *
    generalize previous % (2 * half) = low at *
    generalize index / (2 * half) = next at *
    generalize index % (2 * half) = short at *
    have step := Nat.mul_le_mul_left (2 * half) (Nat.succ_le_of_lt later)
    rw [Nat.succ_eq_add_one, Nat.mul_add, Nat.mul_one] at step
    have successor : next = high + 1 := by
      by_contra far
      have twice := Nat.mul_le_mul_left (2 * half) (show high + 2 ≤ next by omega)
      rw [Nat.mul_add] at twice
      omega
    subst successor
    rw [Nat.mul_add, Nat.mul_one] at indexSplit
    rw [if_pos (by omega)]

end ExtendedIndex
