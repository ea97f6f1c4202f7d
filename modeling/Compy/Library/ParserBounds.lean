import Compy.Library.IncrementalParsing

/-!
# What a parser looks at

Two judgments about the parsers of `IncrementalParsing`, with one rule each for
running parsers one after the other.  `Yields` relates an accepted value to the
bytes it was taken from.  `Oversteps` says on which inputs a parser looks at the
byte behind the input.
-/

set_option autoImplicit false

namespace IncrementalParsing

variable {β ε α γ : Type}

/-! ## Pieces of a list -/

/-- The pieces lie in the list in this order, apart from each other. -/
inductive InOrder : List (List β) → List β → Prop where
  | nil (bytes : List β) : InOrder [] bytes
  | cons (gap piece rest : List β) (pieces : List (List β)) (more : InOrder pieces rest) :
      InOrder (piece :: pieces) (gap ++ (piece ++ rest))

theorem InOrder.behind {pieces : List (List β)} {bytes : List β} (front : List β)
    (pieces_in : InOrder pieces bytes) : InOrder pieces (front ++ bytes) := by
  cases pieces_in with
  | nil => exact .nil _
  | cons gap piece rest pieces more =>
      rw [← List.append_assoc]
      exact .cons (front ++ gap) piece rest pieces more

theorem InOrder.append {one other : List (List β)} {front back : List β}
    (oneIn : InOrder one front) (otherIn : InOrder other back) :
    InOrder (one ++ other) (front ++ back) := by
  induction oneIn with
  | nil bytes => exact otherIn.behind bytes
  | cons gap piece rest pieces _ ih =>
      rw [List.cons_append, List.append_assoc, List.append_assoc]
      exact .cons gap piece _ _ ih

theorem InOrder.single (piece rest : List β) : InOrder [piece] (piece ++ rest) :=
  .cons [] piece rest [] (.nil rest)

theorem InOrder.front {one other : List (List β)} {bytes : List β}
    (both : InOrder (one ++ other) bytes) : InOrder one bytes := by
  induction one generalizing bytes with
  | nil => exact .nil bytes
  | cons piece one ih =>
      cases both with
      | cons gap _ rest _ more => exact .cons gap piece rest one (ih more)

/-! ## What an accepted value is made from -/

/-- What is accepted lies within the input, and `Made` holds of the value and of the
part taken. -/
def Yields (Made : α → List β → Prop) (parser : Parser β ε α) : Prop :=
  ∀ past input offset value, parser past input = .Complete offset value →
    offset ≤ input.length ∧ Made value (input.take offset)

variable {Made : α → List β → Prop} {Then : α → γ → List β → Prop} {Result : γ → List β → Prop}

theorem yields_pure (value : α) (made : Made value []) :
    Yields Made (pure value : Parser β ε α) := by
  intro past input offset result accepted
  cases accepted
  exact ⟨Nat.zero_le _, made⟩

theorem yields_fail (error : ε) : Yields Made (Parser.fail error : Parser β ε α) := by
  intro past input offset value accepted
  contradiction

theorem Decides.yields {Among : List β → Prop} {Stuck : Option β → List β → Prop} {ahead : Nat}
    {parser : Parser β ε α} (decides : Decides Among Stuck ahead parser) :
    Yields (fun _ _ => True) parser :=
  fun past input offset value accepted =>
    ⟨decides.within past input offset value accepted, trivial⟩

theorem Still.yields {parser : Parser β ε α} (still : Still parser) :
    Yields (fun _ _ => True) parser := by
  rcases still with ⟨value, rfl⟩ | ⟨error, rfl⟩
  · exact yields_pure value trivial
  · exact yields_fail error

theorem Yields.bind {first : Parser β ε α} {second : α → Parser β ε γ} (one : Yields Made first)
    (two : ∀ value, Yields (Then value) (second value))
    (both : ∀ value result front back, Made value front → Then value result back →
      Result result (front ++ back)) : Yields Result (first >>= second) := by
  intro past input total result accepted
  obtain ⟨offset, value, own, firstAccepted, secondAccepted, rfl⟩ :=
    (bind_eq_complete first second past input total result).mp accepted
  obtain ⟨inside, made⟩ := one past input offset value firstAccepted
  obtain ⟨insideRest, madeRest⟩ := two value past _ own result secondAccepted
  rw [List.length_drop] at insideRest
  refine ⟨by omega, ?_⟩
  rw [List.take_add]
  exact both value result _ _ made madeRest

theorem Yields.after {first : Parser β ε α} {second : α → Parser β ε γ}
    (inside : Yields (fun _ _ => True) first) (two : ∀ value, Yields Result (second value))
    (behind : ∀ result front back, Result result back → Result result (front ++ back)) :
    Yields Result (first >>= second) :=
  inside.bind two fun _ result front back _ made => behind result front back made

theorem Yields.bind_still {first : Parser β ε α} {second : α → Parser β ε γ}
    (one : Yields Made first) (still : ∀ value, Still (second value))
    (same : ∀ value past input offset result, second value past input = .Complete offset result →
      ∀ bytes, Made value bytes → Result result bytes) : Yields Result (first >>= second) := by
  intro past input total result accepted
  obtain ⟨offset, value, own, firstAccepted, secondAccepted, rfl⟩ :=
    (bind_eq_complete first second past input total result).mp accepted
  obtain ⟨inside, made⟩ := one past input offset value firstAccepted
  have nothing : own = 0 := by
    rcases still value with ⟨given, computes⟩ | ⟨error, fails⟩
    · rw [computes] at secondAccepted
      cases secondAccepted
      rfl
    · rw [fails] at secondAccepted
      contradiction
  rw [nothing, Nat.add_zero]
  exact ⟨inside, same value past _ own result secondAccepted _ made⟩

theorem Yields.imp {Other : α → List β → Prop} {parser : Parser β ε α} (yields : Yields Made parser)
    (weaker : ∀ value bytes, Made value bytes → Other value bytes) : Yields Other parser := by
  intro past input offset value accepted
  obtain ⟨inside, made⟩ := yields past input offset value accepted
  exact ⟨inside, weaker value _ made⟩

/-! ## Looking behind the input -/

/-- With no byte behind the input the parser faults on the inputs that are `Stuck`; on the
others it does not look there. -/
structure Oversteps (Stuck : Option β → List β → Prop) (parser : Parser β ε α) : Prop where
  faults_iff : ∀ input, parser none input = .Fault ↔ Stuck none input
  blind : ∀ input, ¬ Stuck none input → ∀ past, parser past input = parser none input

def Empty (_ : Option β) (input : List β) : Prop := input = []

variable {Stuck Stuck' : Option β → List β → Prop}

theorem Oversteps.congr {parser : Parser β ε α} (oversteps : Oversteps Stuck parser)
    (same : ∀ input, Stuck' none input ↔ Stuck none input) : Oversteps Stuck' parser where
  faults_iff input := (oversteps.faults_iff input).trans (same input).symm
  blind input free := oversteps.blind input fun stuck => free ((same input).mpr stuck)

theorem shift_eq_fault (outcome : Outcome ε α) (count : Nat) :
    outcome.shift count = .Fault ↔ outcome = .Fault := by
  cases outcome <;> simp [Outcome.shift]

theorem Still.oversteps {parser : Parser β ε α} (still : Still parser) :
    Oversteps Never parser := by
  have answers {outcome : Outcome ε α} (other : outcome ≠ .Fault) : outcome = .Fault ↔ False :=
    iff_of_false other id
  rcases still with ⟨value, rfl⟩ | ⟨error, rfl⟩
  · exact ⟨fun input => answers nofun, fun input _ past => rfl⟩
  · exact ⟨fun input => answers nofun, fun input _ past => rfl⟩

theorem Oversteps.bind {first : Parser β ε α} {second : α → Parser β ε γ}
    {StuckSecond : α → Option β → List β → Prop} (one : Oversteps Stuck first)
    (two : ∀ value, Oversteps (StuckSecond value) (second value)) :
    Oversteps (BindStuck first Stuck StuckSecond) (first >>= second) where
  faults_iff input := by
    rw [bind_apply, BindStuck, ← one.faults_iff input]
    cases ran : first none input with
    | Complete offset value =>
        dsimp only
        rw [shift_eq_fault, (two value).faults_iff]
        constructor
        · intro stuck
          exact Or.inr ⟨offset, value, rfl, stuck⟩
        · rintro (faults | ⟨_, _, same, stuck⟩)
          · contradiction
          · cases same
            exact stuck
    | Partial => simp
    | Failure error => simp
    | Fault => simp
  blind input free past := by
    rw [BindStuck, not_or] at free
    have same := one.blind input free.1 past
    rw [bind_apply, bind_apply, same]
    cases ran : first none input with
    | Complete offset value =>
        dsimp only
        rw [(two value).blind _ (fun stuck => free.2 ⟨offset, value, ran, stuck⟩) past]
    | Partial => rfl
    | Failure error => rfl
    | Fault => rfl

theorem Oversteps.bind_never {first : Parser β ε α} {second : α → Parser β ε γ}
    (one : Oversteps Never first) (two : ∀ value, Oversteps Never (second value)) :
    Oversteps Never (first >>= second) := by
  refine (one.bind two).congr fun input => ⟨False.elim, ?_⟩
  rintro (never | ⟨_, _, _, never⟩)
  · exact never
  · exact never

/-- A first parser that leaves something keeps the second one from looking behind. -/
theorem Oversteps.bind_looked {first : Parser β ε α} {second : α → Parser β ε γ}
    (one : Oversteps Never first)
    (leaves : ∀ input offset value, first none input = .Complete offset value →
      offset < input.length)
    (two : ∀ value, Oversteps Empty (second value)) : Oversteps Never (first >>= second) := by
  refine (one.bind two).congr fun input => ⟨False.elim, ?_⟩
  rintro (never | ⟨offset, value, accepted, empty⟩)
  · exact never
  · have left := leaves input offset value accepted
    have outside := List.drop_eq_nil_iff.mp empty
    exact absurd left (Nat.not_lt.mpr outside)

theorem Oversteps.bind_first {first : Parser β ε α} {second : α → Parser β ε γ}
    (one : Oversteps Stuck first) (two : ∀ value, Oversteps Never (second value)) :
    Oversteps Stuck (first >>= second) :=
  (one.bind two).congr fun input => (bindStuck_first first none input).symm

/-! ## With an element behind the input -/

def Backed (parser : Parser β ε α) : Prop := ∀ last input, parser (some last) input ≠ .Fault

theorem Oversteps.backed {parser : Parser β ε α} (oversteps : Oversteps Never parser) :
    Backed parser := by
  intro last input faults
  rw [oversteps.blind input id] at faults
  exact (oversteps.faults_iff input).mp faults

theorem Backed.bind {first : Parser β ε α} {second : α → Parser β ε γ} (one : Backed first)
    (two : ∀ value, Backed (second value)) : Backed (first >>= second) := by
  intro last input
  rw [bind_apply]
  cases ran : first (some last) input with
  | Complete offset value =>
      dsimp only
      rw [Ne, shift_eq_fault]
      exact two value last _
  | Partial => exact nofun
  | Failure error => exact nofun
  | Fault => exact absurd ran (one last input)

end IncrementalParsing
