import Compy.Library.Searching

/-!
# A text cut at a delimiter

Each piece lies behind an occurrence of the delimiter and has none in it.  An unbordered
delimiter cuts a text in one way only, and a scan that goes on element by element finds the
pieces.
-/

set_option autoImplicit false

namespace Delimited

open Searching

variable {α : Type} {pattern : List α}

def joined (pattern : List α) (pieces : List (List α)) : List α :=
  pieces.flatMap fun piece => pattern ++ piece

def Clean (pattern : List α) (pieces : List (List α)) : Prop :=
  ∀ piece ∈ pieces, ¬ pattern <:+: piece

theorem joined_cons (piece : List α) (pieces : List (List α)) :
    joined pattern (piece :: pieces) = pattern ++ (piece ++ joined pattern pieces) := by
  rw [joined, List.flatMap_cons, List.append_assoc]
  rfl

def Follows (pattern rest : List α) : Prop := rest = [] ∨ pattern <+: rest

theorem joined_follows (pieces : List (List α)) : Follows pattern (joined pattern pieces) := by
  cases pieces with
  | nil => exact Or.inl rfl
  | cons piece pieces =>
      rw [joined_cons]
      exact Or.inr (List.prefix_append _ _)

theorem no_start (unbordered : Unbordered pattern) {first : α} {piece rest : List α}
    (clean : ¬ pattern <:+: first :: piece) (follows : Follows pattern rest) :
    ¬ pattern <+: (first :: piece) ++ rest := by
  intro starts
  rcases follows with rfl | ⟨more, rfl⟩
  · rw [List.append_nil] at starts
    exact clean starts.isInfix
  · have place := firstAt_of_clean unbordered clean more
    rw [← List.append_assoc] at starts
    exact place.before 0 (Nat.zero_lt_succ _) (occursAt_zero.mpr starts)

theorem clean_tail {first : α} {piece : List α} (clean : ¬ pattern <:+: first :: piece) :
    ¬ pattern <:+: piece := fun inside => clean (List.infix_cons inside)

theorem exists_pieces (present : pattern ≠ []) (text : List α) (starts : pattern <+: text) :
    ∃ pieces, joined pattern pieces = text ∧ Clean pattern pieces ∧ pieces ≠ [] := by
  induction size : text.length using Nat.strong_induction_on generalizing text with
  | _ count ih =>
      obtain ⟨rest, rfl⟩ := starts
      have positive := List.length_pos_of_ne_nil present
      rw [List.length_append] at size
      by_cases inside : pattern <:+: rest
      · obtain ⟨i, place⟩ := exists_firstAt_iff.mpr inside
        have less : (rest.drop i).length < count := by
          rw [List.length_drop]
          omega
        obtain ⟨pieces, same, clean, _⟩ := ih _ less (rest.drop i) place.occurs rfl
        refine ⟨rest.take i :: pieces, ?_, ?_, List.cons_ne_nil _ _⟩
        · rw [joined_cons, same, List.take_append_drop]
        · exact List.forall_mem_cons.mpr ⟨place.clean present, clean⟩
      · refine ⟨[rest], ?_, List.forall_mem_singleton.mpr inside, List.cons_ne_nil _ _⟩
        rw [joined_cons, joined, List.flatMap_nil, List.append_nil]

theorem piece_unique (unbordered : Unbordered pattern) {piece other rest rest' : List α}
    (clean : ¬ pattern <:+: piece) (clean' : ¬ pattern <:+: other) (follows : Follows pattern rest)
    (follows' : Follows pattern rest') (same : piece ++ rest = other ++ rest') :
    piece = other ∧ rest = rest' := by
  have length : piece.length = other.length := by
    rcases follows with rfl | ⟨more, rfl⟩
    · rcases follows' with rfl | ⟨more', rfl⟩
      · rw [List.append_nil, List.append_nil] at same
        rw [same]
      · rw [List.append_nil] at same
        exact absurd ⟨other, more', by rw [same, List.append_assoc]⟩ clean
    · rcases follows' with rfl | ⟨more', rfl⟩
      · rw [List.append_nil] at same
        exact absurd ⟨piece, more, by rw [← same, List.append_assoc]⟩ clean'
      · have first := firstAt_of_clean unbordered clean more
        have second := firstAt_of_clean unbordered clean' more'
        rw [List.append_assoc, same, ← List.append_assoc] at first
        exact first.unique second
  exact List.append_inj same length

theorem pieces_unique (unbordered : Unbordered pattern) (present : pattern ≠ [])
    {pieces others : List (List α)} (clean : Clean pattern pieces) (clean' : Clean pattern others)
    (same : joined pattern pieces = joined pattern others) : pieces = others := by
  induction pieces generalizing others with
  | nil =>
      cases others with
      | nil => rfl
      | cons other others =>
          rw [joined_cons] at same
          exact absurd (List.append_eq_nil_iff.mp same.symm).1 present
  | cons piece pieces ih =>
      cases others with
      | nil =>
          rw [joined_cons] at same
          exact absurd (List.append_eq_nil_iff.mp same).1 present
      | cons other others =>
          rw [joined_cons, joined_cons, List.append_cancel_left_eq] at same
          obtain ⟨here, later⟩ := List.forall_mem_cons.mp clean
          obtain ⟨here', later'⟩ := List.forall_mem_cons.mp clean'
          obtain ⟨rfl, rest⟩ := piece_unique unbordered here here' (joined_follows pieces)
            (joined_follows others) same
          rw [ih later later' rest]

end Delimited
