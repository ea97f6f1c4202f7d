import Compy.Library.IncrementalParsing

/-!
# Parsers that do not ask for more

A parser settles on the inputs of a kind when it accepts or rejects each of them.  The
judgment also says what kind of rest is left where it accepts, so that parsers in sequence
settle when each does on what the one before it leaves.
-/

set_option autoImplicit false

namespace IncrementalParsing

variable {β ε α γ : Type}

/-- An answer that more input is not asked for. -/
def Outcome.Settled : Outcome ε α → Prop
  | .Complete _ _ | .Failure _ => True
  | .Partial | .Fault => False

@[simp] theorem settled_shift (outcome : Outcome ε α) (count : Nat) :
    (outcome.shift count).Settled ↔ outcome.Settled := by
  cases outcome <;> exact Iff.rfl

def Settles (Before : List β → Prop) (parser : Parser β ε α) (After : List β → Prop) : Prop :=
  ∀ past input, Before input → (∃ error, parser past input = .Failure error) ∨
    ∃ offset value, parser past input = .Complete offset value ∧ After (input.drop offset)

variable {Before Before' Between After After' : List β → Prop}

theorem Settles.settled {parser : Parser β ε α} (settles : Settles Before parser After)
    (past : Option β) (input : List β) (before : Before input) : (parser past input).Settled := by
  rcases settles past input before with ⟨error, failed⟩ | ⟨offset, value, accepted, _⟩
  · rw [failed]
    trivial
  · rw [accepted]
    trivial

theorem Settles.weaken {parser : Parser β ε α} (settles : Settles Before parser After)
    (start : ∀ input, Before' input → Before input) (leaves : ∀ rest, After rest → After' rest) :
    Settles Before' parser After' := by
  intro past input before
  rcases settles past input (start input before) with failed | ⟨offset, value, accepted, after⟩
  · exact .inl failed
  · exact .inr ⟨offset, value, accepted, leaves _ after⟩

theorem Settles.bind {first : Parser β ε α} {second : α → Parser β ε γ}
    (one : Settles Before first Between) (two : ∀ value, Settles Between (second value) After) :
    Settles Before (first >>= second) After := by
  intro past input before
  rcases one past input before with ⟨error, failed⟩ | ⟨offset, value, accepted, between⟩
  · left
    rw [bind_apply, failed]
    exact ⟨error, rfl⟩
  · rw [bind_complete first second past input offset value accepted]
    rcases two value past _ between with ⟨error, failed⟩ | ⟨own, result, finished, after⟩
    · left
      rw [failed]
      exact ⟨error, rfl⟩
    · right
      rw [finished, Outcome.shift]
      rw [List.drop_drop] at after
      exact ⟨offset + own, result, rfl, after⟩

theorem settles_pure (value : α) : Settles After (pure value : Parser β ε α) After := by
  intro past input holds
  exact .inr ⟨0, value, rfl, holds⟩

theorem settles_fail (error : ε) : Settles Before (Parser.fail error : Parser β ε α) After := by
  intro past input _
  exact .inl ⟨error, rfl⟩

end IncrementalParsing
