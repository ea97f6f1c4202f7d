import Mathlib.Data.List.Infix
import Mathlib.Order.Basic

/-!
# Searching a text from its start

Where a pattern stands first in a text, and how long a text satisfies a predicate.  Both are
determined by the text, and the first place of a pattern by any front of the text that the
pattern ends in.
-/

set_option autoImplicit false

namespace Searching

variable {α : Type} {pattern text : List α} {i : Nat}

/-! ## Patterns -/

def OccursAt (pattern text : List α) (i : Nat) : Prop := pattern <+: text.drop i

theorem occursAt_zero : OccursAt pattern text 0 ↔ pattern <+: text := Iff.rfl

theorem infix_iff_occursAt : pattern <:+: text ↔ ∃ i, OccursAt pattern text i := by
  constructor
  · intro ⟨front, back, same⟩
    refine ⟨front.length, back, ?_⟩
    rw [← same, List.append_assoc, List.drop_left]
  · intro ⟨i, occurs⟩
    exact occurs.isInfix.trans (List.drop_suffix i text).isInfix

theorem OccursAt.fits (present : pattern ≠ []) (occurs : OccursAt pattern text i) :
    i + pattern.length ≤ text.length := by
  have shorter := occurs.length_le
  have positive := List.length_pos_iff.mpr present
  rw [List.length_drop] at shorter
  omega

theorem occursAt_front {front : List α} (starts : front <+: text)
    (inside : i + pattern.length ≤ front.length) :
    OccursAt pattern front i ↔ OccursAt pattern text i := by
  obtain ⟨back, rfl⟩ := starts
  have behind : (front ++ back).drop i = front.drop i ++ back :=
    List.drop_append_of_le_length (by omega)
  unfold OccursAt
  rw [behind]
  constructor
  · intro occurs
    exact occurs.trans (List.prefix_append _ back)
  · intro occurs
    apply List.prefix_of_prefix_length_le occurs (List.prefix_append _ back)
    rw [List.length_drop]
    omega

structure FirstAt (pattern text : List α) (i : Nat) : Prop where
  occurs : OccursAt pattern text i
  before : ∀ j < i, ¬ OccursAt pattern text j

theorem FirstAt.unique {j : Nat} (first : FirstAt pattern text i)
    (other : FirstAt pattern text j) : i = j := by
  rcases Nat.lt_trichotomy i j with less | same | more
  · exact absurd first.occurs (other.before i less)
  · exact same
  · exact absurd other.occurs (first.before j more)

theorem firstAt_zero : FirstAt pattern text 0 ↔ pattern <+: text := by
  constructor
  · intro first
    exact first.occurs
  · intro starts
    exact ⟨starts, by simp⟩

theorem firstAt_succ {first : α} (elsewhere : ¬ pattern <+: first :: text) :
    FirstAt pattern (first :: text) (i + 1) ↔ FirstAt pattern text i := by
  constructor
  · intro found
    refine ⟨found.occurs, ?_⟩
    intro j less
    exact found.before (j + 1) (by omega)
  · intro found
    refine ⟨found.occurs, ?_⟩
    intro j less
    cases j with
    | zero => exact elsewhere
    | succ j => exact found.before j (by omega)

theorem exists_firstAt_iff : (∃ i, FirstAt pattern text i) ↔ pattern <:+: text := by
  constructor
  · intro ⟨i, first⟩
    exact infix_iff_occursAt.mpr ⟨i, first.occurs⟩
  · intro inside
    induction text with
    | nil => exact ⟨0, firstAt_zero.mpr (List.infix_nil.mp inside ▸ List.prefix_rfl)⟩
    | cons first text ih =>
        by_cases here : pattern <+: first :: text
        · exact ⟨0, firstAt_zero.mpr here⟩
        · obtain ⟨i, found⟩ := ih ((List.infix_cons_iff.mp inside).resolve_left here)
          exact ⟨i + 1, (firstAt_succ here).mpr found⟩

/-- The first place is decided once the pattern has ended. -/
theorem FirstAt.of_front {front : List α} (starts : front <+: text)
    (first : FirstAt pattern front i) (inside : i + pattern.length ≤ front.length) :
    FirstAt pattern text i where
  occurs := (occursAt_front starts inside).mp first.occurs
  before j less occurs := first.before j less ((occursAt_front starts (by omega)).mpr occurs)

theorem FirstAt.front {front : List α} (starts : front <+: text)
    (first : FirstAt pattern text i) (inside : i + pattern.length ≤ front.length) :
    FirstAt pattern front i where
  occurs := (occursAt_front starts inside).mpr first.occurs
  before j less occurs := first.before j less ((occursAt_front starts (by omega)).mp occurs)

theorem OccursAt.split (occurs : OccursAt pattern text i) :
    text = text.take i ++ pattern ++ text.drop (i + pattern.length) := by
  obtain ⟨rest, same⟩ := occurs
  have behind : text.drop (i + pattern.length) = rest := by
    rw [← List.drop_drop, ← same, List.drop_left]
  rw [behind, List.append_assoc, same, List.take_append_drop]

theorem OccursAt.suffix (occurs : OccursAt pattern text i) :
    pattern <:+ text.take (i + pattern.length) := by
  rw [List.take_add, ← List.prefix_iff_eq_take.mp occurs]
  exact List.suffix_append _ pattern

theorem FirstAt.clean (present : pattern ≠ []) (first : FirstAt pattern text i) :
    ¬ pattern <:+: text.take i := by
  intro inside
  obtain ⟨j, occurs⟩ := infix_iff_occursAt.mp inside
  have fits := occurs.fits present
  have positive := List.length_pos_iff.mpr present
  have shorter := List.length_take_le i text
  apply first.before j (by omega)
  exact (occursAt_front (List.take_prefix i text) fits).mp occurs

/-- No end of the pattern is a start of it, so that two places of it never overlap. -/
def Unbordered (pattern : List α) : Prop :=
  ∀ k < pattern.length, 0 < k → ¬ pattern.drop k <+: pattern

instance [DecidableEq α] : DecidablePred (Unbordered (α := α)) := fun pattern =>
  inferInstanceAs (Decidable (∀ k < pattern.length, 0 < k → ¬ pattern.drop k <+: pattern))

/-- Behind a text that the pattern does not stand in, it stands first, unless it overlaps. -/
theorem firstAt_of_clean (unbordered : Unbordered pattern) {front : List α}
    (clean : ¬ pattern <:+: front) (rest : List α) :
    FirstAt pattern (front ++ pattern ++ rest) front.length where
  occurs := by
    unfold OccursAt
    rw [List.append_assoc, List.drop_left]
    exact List.prefix_append pattern rest
  before j less occurs := by
    rw [List.append_assoc] at occurs
    by_cases inside : j + pattern.length ≤ front.length
    · have starts := List.prefix_append front (pattern ++ rest)
      have within := (occursAt_front starts inside).mpr occurs
      exact clean (infix_iff_occursAt.mpr ⟨j, within⟩)
    · -- What reaches over the end of the front starts the pattern once more.
      unfold OccursAt at occurs
      rw [List.drop_append_of_le_length (Nat.le_of_lt less)] at occurs
      have size : (front.drop j).length = front.length - j := List.length_drop
      have again : pattern.drop (front.length - j) <+: pattern ++ rest := by
        obtain ⟨back, same⟩ := occurs
        refine ⟨back, ?_⟩
        have dropped := congrArg (List.drop (front.drop j).length) same
        rwa [List.drop_left, List.drop_append_of_le_length (by omega), size] at dropped
      refine unbordered (front.length - j) (by omega) (by omega) ?_
      apply List.prefix_of_prefix_length_le again (List.prefix_append pattern rest)
      exact (List.drop_suffix _ pattern).length_le

/-! ## Predicates -/

variable {p : α → Bool}

/-- So long is the longest front of the text that satisfies the predicate. -/
structure LongestFront (p : α → Bool) (text : List α) (k : Nat) : Prop where
  inside : k ≤ text.length
  all : ∀ c ∈ text.take k, p c = true
  longest : ∀ j ≤ text.length, (∀ c ∈ text.take j, p c = true) → j ≤ k

theorem LongestFront.unique {k other : Nat} (front : LongestFront p text k)
    (front' : LongestFront p text other) : k = other :=
  Nat.le_antisymm (front'.longest k front.inside front.all)
    (front.longest other front'.inside front'.all)

theorem longestFront_whole (all : ∀ c ∈ text, p c = true) : LongestFront p text text.length where
  inside := Nat.le_refl _
  all := by rwa [List.take_length]
  longest _ inside _ := inside

theorem longestFront_stops {front rest : List α} {c : α} (all : ∀ other ∈ front, p other = true)
    (stop : p c = false) : LongestFront p (front ++ c :: rest) front.length where
  inside := by simp
  all := by rwa [List.take_left]
  longest j _ satisfied := by
    by_contra longer
    have reached : c ∈ (front ++ c :: rest).take j := by
      obtain ⟨more, rfl⟩ := Nat.exists_eq_add_of_lt (Nat.lt_of_not_le longer)
      rw [Nat.add_assoc, List.take_length_add_append, List.take_succ_cons]
      simp
    rw [satisfied c reached] at stop
    contradiction

end Searching
