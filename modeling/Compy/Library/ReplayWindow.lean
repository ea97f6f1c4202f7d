import Mathlib.Data.Set.Finite.Lemmas
import Mathlib.Order.Bounds.Defs
import Mathlib.Tactic.Ring

/-!
# Sliding anti-replay windows

The purpose of a replay window is set-theoretic: of all the indices ever
admitted, admit a new one when it is not among them and not `w` or more below
the highest.  A receiver cannot keep that set.  It keeps the highest index and
`w` bits, bit `d` telling whether the index `d` below the highest was admitted.

`Tracks` relates the two.  The start state tracks the empty set, the test on
the bits decides `Fresh`, and `advance` tracks the set with the new index.
-/

set_option autoImplicit false

namespace ReplayWindow

variable {w : Nat}

def Fresh (w : Nat) (admitted : Set Nat) (index : Nat) : Prop :=
  index ∉ admitted ∧ ∀ seen ∈ admitted, seen < index + w

theorem fresh_iff_highest (admitted : Set Nat) (finite : admitted.Finite) (index : Nat) :
    Fresh w admitted index ↔
      index ∉ admitted ∧ ∀ highest, IsGreatest admitted highest → (highest : Int) - w < index := by
  refine and_congr_right fun _ => ⟨fun near highest top => ?_, fun near seen member => ?_⟩
  · have := near highest top.1
    omega
  · obtain ⟨highest, top, above⟩ := Set.exists_max_image admitted id finite ⟨seen, member⟩
    have high := near highest ⟨top, above⟩
    have low : seen ≤ highest := above seen member
    omega

structure Tracks (admitted : Set Nat) (highest : Nat) (mask : BitVec w) : Prop where
  bounded : ∀ index ∈ admitted, index ≤ highest
  top : highest ∈ admitted ∨ admitted = ∅ ∧ highest = 0
  bits : ∀ delta < w,
    (mask.getLsbD delta = true ↔ delta ≤ highest ∧ highest - delta ∈ admitted)

/-- The test a receiver makes before it trusts a packet. -/
def Acceptable (highest : Nat) (mask : BitVec w) (index : Nat) : Prop :=
  highest < index ∨ highest - index < w ∧ mask.getLsbD (highest - index) = false

def slide (mask : BitVec w) (shift : Nat) : BitVec w :=
  if shift < w then mask <<< shift else 0

def mark (mask : BitVec w) (delta : Nat) : BitVec w := mask ||| 1#w <<< delta

def advance (highest : Nat) (mask : BitVec w) (index : Nat) : Nat × BitVec w :=
  if highest < index then (index, mark (slide mask (index - highest)) 0)
  else (highest, mark mask (highest - index))

theorem getLsbD_slide (mask : BitVec w) (shift delta : Nat) (inside : delta < w) :
    (slide mask shift).getLsbD delta =
      (decide (shift ≤ delta) && mask.getLsbD (delta - shift)) := by
  unfold slide
  split
  · rw [BitVec.getLsbD_shiftLeft]
    by_cases low : delta < shift
    · simp [inside, low, Nat.not_le.mpr low]
    · simp [inside, low, Nat.le_of_not_lt low]
  · have low : ¬ shift ≤ delta := by omega
    simp [low]

theorem getLsbD_mark (mask : BitVec w) (delta bit : Nat) (inside : bit < w) :
    (mark mask delta).getLsbD bit = (mask.getLsbD bit || decide (bit = delta)) := by
  unfold mark
  rw [BitVec.getLsbD_or, BitVec.getLsbD_shiftLeft]
  congr 1
  by_cases low : bit < delta
  · have different : bit ≠ delta := by omega
    simp [inside, low, different]
  · by_cases same : bit = delta
    · subst same
      have positive : 0 < w := by omega
      simp [inside, positive]
    · have above : bit - delta ≠ 0 := by omega
      simp [inside, low, same, BitVec.getLsbD_one, above]

/-- The bit test as a C program writes it. -/
theorem and_shift_eq_zero (mask : BitVec w) (delta : Nat) (inside : delta < w) :
    mask &&& 1#w <<< delta = 0 ↔ mask.getLsbD delta = false := by
  have positive : 0 < w := by omega
  constructor
  · intro zero
    have bit := congrArg (fun mask : BitVec w => mask.getLsbD delta) zero
    simpa [inside, positive] using bit
  · intro clear
    apply BitVec.eq_of_getLsbD_eq
    intro bit bound
    rw [BitVec.getLsbD_and, BitVec.getLsbD_shiftLeft]
    by_cases low : bit < delta
    · simp [low]
    · by_cases same : bit = delta
      · subst same
        simp [clear]
      · have above : bit - delta ≠ 0 := by omega
        simp [BitVec.getLsbD_one, above]

theorem tracks_start : Tracks (∅ : Set Nat) 0 (0 : BitVec w) where
  bounded := by simp
  top := Or.inr ⟨rfl, rfl⟩
  bits := by simp

theorem Tracks.acceptable_iff {admitted : Set Nat} {highest : Nat} {mask : BitVec w}
    (tracked : Tracks admitted highest mask) (positive : 0 < w) (index : Nat) :
    Acceptable highest mask index ↔ Fresh w admitted index := by
  constructor
  · rintro (ahead | ⟨near, clear⟩)
    · refine ⟨fun seen => ?_, fun seen member => ?_⟩
      · have := tracked.bounded index seen
        omega
      · have := tracked.bounded seen member
        omega
    · by_cases ahead : highest < index
      · refine ⟨fun seen => ?_, fun seen member => ?_⟩
        · have := tracked.bounded index seen
          omega
        · have := tracked.bounded seen member
          omega
      · refine ⟨fun seen => ?_, fun seen member => ?_⟩
        · have set := (tracked.bits (highest - index) near).mpr
            ⟨by omega, by rwa [Nat.sub_sub_self (by omega)]⟩
          rw [clear] at set
          contradiction
        · have := tracked.bounded seen member
          omega
  · rintro ⟨new, close⟩
    by_cases ahead : highest < index
    · exact Or.inl ahead
    · right
      have near : highest - index < w := by
        rcases tracked.top with member | ⟨_, zero⟩
        · have := close highest member
          omega
        · omega
      refine ⟨near, ?_⟩
      rw [Bool.eq_false_iff]
      intro set
      have member := ((tracked.bits (highest - index) near).mp set).2
      rw [Nat.sub_sub_self (by omega)] at member
      exact new member

theorem Tracks.advance {admitted : Set Nat} {highest : Nat} {mask : BitVec w}
    (tracked : Tracks admitted highest mask) (index : Nat) :
    Tracks (insert index admitted) (advance highest mask index).1
      (advance highest mask index).2 := by
  unfold ReplayWindow.advance
  split
  · rename_i ahead
    refine ⟨?_, Or.inl (Set.mem_insert ..), ?_⟩
    · rintro seen (rfl | member)
      · exact Nat.le_refl _
      · exact Nat.le_of_lt (Nat.lt_of_le_of_lt (tracked.bounded seen member) ahead)
    · intro delta inside
      dsimp only
      rw [getLsbD_mark _ _ _ inside, getLsbD_slide _ _ _ inside, Bool.or_eq_true,
        Bool.and_eq_true, decide_eq_true_eq, decide_eq_true_eq, Set.mem_insert_iff]
      constructor
      · rintro (⟨shifted, set⟩ | rfl)
        · have old := (tracked.bits (delta - (index - highest)) (by omega)).mp set
          refine ⟨by omega, Or.inr ?_⟩
          rw [show index - delta = highest - (delta - (index - highest)) by omega]
          exact old.2
        · exact ⟨by omega, Or.inl rfl⟩
      · rintro ⟨below, same | member⟩
        · exact Or.inr (by omega)
        · have := tracked.bounded _ member
          refine Or.inl ⟨by omega, (tracked.bits _ (by omega)).mpr ⟨by omega, ?_⟩⟩
          rw [show highest - (delta - (index - highest)) = index - delta by omega]
          exact member
  · rename_i behind
    refine ⟨?_, ?_, ?_⟩
    · rintro seen (rfl | member)
      · exact Nat.le_of_not_lt behind
      · exact tracked.bounded seen member
    · rcases tracked.top with member | ⟨_, zero⟩
      · exact Or.inl (Set.mem_insert_of_mem _ member)
      · exact Or.inl (by dsimp only; rw [show highest = index by omega]; exact Set.mem_insert ..)
    · intro delta inside
      dsimp only
      rw [getLsbD_mark _ _ _ inside, Bool.or_eq_true, decide_eq_true_eq,
        tracked.bits delta inside, Set.mem_insert_iff]
      constructor
      · rintro (⟨below, member⟩ | rfl)
        · exact ⟨below, Or.inr member⟩
        · exact ⟨by omega, Or.inl (by omega)⟩
      · rintro ⟨below, same | member⟩
        · exact Or.inr (by omega)
        · exact Or.inl ⟨below, member⟩

theorem advance_ne (highest : Nat) (mask : BitVec w) (index : Nat)
    (acceptable : Acceptable highest mask index) :
    advance highest mask index ≠ (highest, mask) := by
  intro same
  unfold advance at same
  split at same
  · rename_i ahead
    have := congrArg Prod.fst same
    dsimp only at this
    omega
  · rename_i behind
    rcases acceptable with ahead | ⟨near, clear⟩
    · exact behind ahead
    · have bit := congrArg (fun mask : BitVec w => mask.getLsbD (highest - index))
        (congrArg Prod.snd same)
      dsimp only at bit
      rw [getLsbD_mark _ _ _ near, clear] at bit
      simp at bit

end ReplayWindow
