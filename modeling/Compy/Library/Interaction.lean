/-!
# Programs over an interface

A program calls the operations of an interface and goes on with their answers.  A contract
says when an operation may be called and what it leaves behind, in terms of a model of the
state.  A program that keeps to the contract runs to its end on every implementation that
meets it.
-/

set_option autoImplicit false

namespace Interaction

structure Interface where
  Command : Type
  Answer : Command → Type

inductive Program (I : Interface) (α : Type) where
  | done (result : α)
  | call (command : I.Command) (next : I.Answer command → Program I α)

/-- Every operation gives its answer and the state behind it, or a fault. -/
abbrev Implementation (I : Interface) (ε σ : Type) :=
  (command : I.Command) → σ → Except ε (I.Answer command × σ)

structure Contract (I : Interface) (γ : Type) where
  pre : I.Command → γ → Prop
  after : (command : I.Command) → γ → I.Answer command → γ

variable {I : Interface} {α β ε σ γ : Type}

namespace Program

def bind : Program I α → (α → Program I β) → Program I β
  | .done result, rest => rest result
  | .call command next, rest => .call command fun answer => (next answer).bind rest

instance : Monad (Program I) where
  pure := .done
  bind := bind

def perform (command : I.Command) : Program I (I.Answer command) := .call command .done

def run (impl : Implementation I ε σ) : Program I α → σ → Except ε (α × σ)
  | .done result, state => .ok (result, state)
  | .call command next, state =>
      match impl command state with
      | .error fault => .error fault
      | .ok (answer, after) => (next answer).run impl after

/-- Whatever is answered, each call is allowed where it is made, and `post` holds at the end. -/
def Ensures (contract : Contract I γ) : Program I α → γ → (α → γ → Prop) → Prop
  | .done result, ghost, post => post result ghost
  | .call command next, ghost, post => contract.pre command ghost ∧
      ∀ answer, (next answer).Ensures contract (contract.after command ghost answer) post

variable {contract : Contract I γ}

@[simp] theorem ensures_pure (result : α) (ghost : γ) (post : α → γ → Prop) :
    Ensures contract (pure result) ghost post ↔ post result ghost := Iff.rfl

@[simp] theorem ensures_perform (command : I.Command) (ghost : γ)
    (post : I.Answer command → γ → Prop) : (perform command).Ensures contract ghost post ↔
      contract.pre command ghost ∧
        ∀ answer, post answer (contract.after command ghost answer) := Iff.rfl

theorem Ensures.mono {program : Program I α} {ghost : γ} {post weaker : α → γ → Prop}
    (ensures : program.Ensures contract ghost post)
    (implies : ∀ result after, post result after → weaker result after) :
    program.Ensures contract ghost weaker := by
  induction program generalizing ghost with
  | done result => exact implies result ghost ensures
  | call command next ih =>
      obtain ⟨allowed, later⟩ := ensures
      exact ⟨allowed, fun answer => ih answer (later answer)⟩

@[simp] theorem ensures_bind (first : Program I α) (rest : α → Program I β) (ghost : γ)
    (post : β → γ → Prop) : Ensures contract (first >>= rest) ghost post ↔
      first.Ensures contract ghost fun result after => (rest result).Ensures contract after post := by
  induction first generalizing ghost with
  | done result => exact Iff.rfl
  | call command next ih => exact and_congr_right fun _ => forall_congr' fun answer => ih answer _

end Program

/-- On a state that `ghost` is a model of, an allowed operation has an answer, and the model is
kept. -/
def Contract.Meets (contract : Contract I γ) (impl : Implementation I ε σ)
    (Models : γ → σ → Prop) : Prop :=
  ∀ command ghost state, Models ghost state → contract.pre command ghost →
    ∃ answer after, impl command state = .ok (answer, after) ∧
      Models (contract.after command ghost answer) after

theorem Contract.Meets.run {contract : Contract I γ} {impl : Implementation I ε σ}
    {Models : γ → σ → Prop} (meets : contract.Meets impl Models) {program : Program I α}
    {ghost : γ} {post : α → γ → Prop} (ensures : program.Ensures contract ghost post) {state : σ}
    (models : Models ghost state) : ∃ result last after, program.run impl state = .ok (result, last) ∧
      Models after last ∧ post result after := by
  induction program generalizing ghost state with
  | done result => exact ⟨result, state, ghost, rfl, models, ensures⟩
  | call command next ih =>
      obtain ⟨allowed, later⟩ := ensures
      obtain ⟨answer, after, answered, kept⟩ := meets command ghost state models allowed
      obtain ⟨result, last, final, ran, ended⟩ := ih answer (later answer) kept
      refine ⟨result, last, final, ?_, ended⟩
      rw [Program.run, answered]
      exact ran

theorem Program.run_bind {impl : Implementation I ε σ} (first : Program I α)
    (rest : α → Program I β) (state : σ) : (first >>= rest).run impl state =
      first.run impl state >>= fun (result, after) => (rest result).run impl after := by
  induction first generalizing state with
  | done result => rfl
  | call command next ih =>
      change Program.run impl (.call command fun answer => (next answer).bind rest) state = _
      rw [Program.run, Program.run]
      cases impl command state with
      | error fault => rfl
      | ok answered => exact ih answered.1 answered.2

/-- Where the operations of one implementation are those of another on the image of its states, so
is every program. -/
theorem Program.run_map {impl : Implementation I ε σ} {τ : Type} {other : Implementation I ε τ}
    (f : τ → σ) (image : ∀ command state, impl command (f state) =
      (other command state).map fun (answer, after) => (answer, f after))
    (program : Program I α) (state : τ) : program.run impl (f state) =
      (program.run other state).map fun (result, last) => (result, f last) := by
  induction program generalizing state with
  | done result => rfl
  | call command next ih =>
      rw [Program.run, Program.run, image]
      cases other command state with
      | error fault => rfl
      | ok answered => exact ih answered.1 answered.2

end Interaction
