import Mathlib.Data.List.Infix
import Mathlib.Order.Basic

/-!
# Incremental parsers

A parser is given a slice: its elements and the element that happens to lie
behind it in memory, `none` where nothing may be read.  It consumes a number of
elements, asks for more input, fails, or reads where it must not.

`Decides` says when a parser has seen enough.  One that has accepted `offset`
elements of some input, and looks `ahead` elements beyond them, gives the same
answer on every input that starts with these, and on every shorter prefix it asks
for more, but for the prefixes where it is `Stuck`.  Parsers in sequence decide
when their parts do.
-/

set_option autoImplicit false

namespace IncrementalParsing

inductive Outcome (ε α : Type) where
  | Complete (offset : Nat) (value : α)
  | Partial
  | Failure (error : ε)
  | Fault
  deriving DecidableEq, Repr

def Parser (β ε α : Type) := Option β → List β → Outcome ε α

variable {β ε α γ : Type}

/-- The same outcome seen from `count` elements before. -/
def Outcome.shift (count : Nat) : Outcome ε α → Outcome ε α
  | .Complete offset value => .Complete (count + offset) value
  | other => other

def Outcome.Stopped : Outcome ε α → Prop
  | .Complete _ _ | .Partial => False
  | .Failure _ | .Fault => True

def Parser.fail (error : ε) : Parser β ε α := fun _ _ => .Failure error

instance : Monad (Parser β ε) where
  pure value := fun _ _ => .Complete 0 value
  bind first second := fun past input =>
    match first past input with
    | .Complete offset value => (second value past (input.drop offset)).shift offset
    | .Partial => .Partial
    | .Failure error => .Failure error
    | .Fault => .Fault

theorem bind_apply (first : Parser β ε α) (second : α → Parser β ε γ) (past : Option β)
    (input : List β) :
    (first >>= second) past input = match first past input with
      | .Complete offset value => (second value past (input.drop offset)).shift offset
      | .Partial => .Partial
      | .Failure error => .Failure error
      | .Fault => .Fault := rfl

theorem bind_complete (first : Parser β ε α) (second : α → Parser β ε γ) (past : Option β)
    (input : List β) (offset : Nat) (value : α)
    (accepted : first past input = .Complete offset value) :
    (first >>= second) past input = (second value past (input.drop offset)).shift offset := by
  rw [bind_apply, accepted]

theorem bind_partial (first : Parser β ε α) (second : α → Parser β ε γ) (past : Option β)
    (input : List β) (waiting : first past input = .Partial) :
    (first >>= second) past input = .Partial := by
  rw [bind_apply, waiting]

theorem bind_stopped (first : Parser β ε α) (second : α → Parser β ε γ) (past : Option β)
    (input : List β) (stopped : (first past input).Stopped) :
    ((first >>= second) past input).Stopped := by
  rw [bind_apply]
  cases answer : first past input with
  | Complete offset value =>
      rw [answer] at stopped
      exact stopped.elim
  | Partial =>
      rw [answer] at stopped
      exact stopped.elim
  | Failure error => trivial
  | Fault => trivial

theorem shift_zero (outcome : Outcome ε α) : outcome.shift 0 = outcome := by
  cases outcome with
  | Complete offset value => rw [Outcome.shift, Nat.zero_add]
  | Partial => rfl
  | Failure error => rfl
  | Fault => rfl

theorem shift_eq_complete (outcome : Outcome ε α) (count offset : Nat) (value : α) :
    outcome.shift count = .Complete offset value ↔
      ∃ own, outcome = .Complete own value ∧ offset = count + own := by
  cases outcome with
  | Complete own given =>
      simp only [Outcome.shift, Outcome.Complete.injEq]
      constructor
      · intro ⟨sum, same⟩
        exact ⟨own, ⟨rfl, same⟩, sum.symm⟩
      · intro ⟨_, ⟨same, given⟩, sum⟩
        exact ⟨by rw [sum, same], given⟩
  | Partial => simp [Outcome.shift]
  | Failure error => simp [Outcome.shift]
  | Fault => simp [Outcome.shift]

theorem shift_eq_partial (outcome : Outcome ε α) (count : Nat) :
    outcome.shift count = .Partial ↔ outcome = .Partial := by
  cases outcome <;> simp [Outcome.shift]

theorem shift_stopped (outcome : Outcome ε α) (count : Nat) :
    (outcome.shift count).Stopped ↔ outcome.Stopped := by
  cases outcome <;> exact Iff.rfl

theorem bind_eq_complete (first : Parser β ε α) (second : α → Parser β ε γ) (past : Option β)
    (input : List β) (total : Nat) (result : γ) :
    (first >>= second) past input = .Complete total result ↔
      ∃ offset value own, first past input = .Complete offset value ∧
        second value past (input.drop offset) = .Complete own result ∧ total = offset + own := by
  rw [bind_apply]
  cases answer : first past input with
  | Complete offset value =>
      dsimp only
      rw [shift_eq_complete]
      constructor
      · intro ⟨own, rest, sum⟩
        exact ⟨offset, value, own, rfl, rest, sum⟩
      · intro ⟨_, _, own, same, rest, sum⟩
        cases same
        exact ⟨own, rest, sum⟩
  | Partial => simp
  | Failure error => simp
  | Fault => simp

theorem shift_shift (outcome : Outcome ε α) (first second : Nat) :
    (outcome.shift second).shift first = outcome.shift (first + second) := by
  cases outcome with
  | Complete offset value => simp only [Outcome.shift, Nat.add_assoc]
  | Partial => rfl
  | Failure error => rfl
  | Fault => rfl

theorem bind_shifted (first : Parser β ε α) (second : α → Parser β ε γ) (past : Option β)
    (front rest : List β)
    (shifted : first past (front ++ rest) = (first past rest).shift front.length) :
    (first >>= second) past (front ++ rest) =
      ((first >>= second) past rest).shift front.length := by
  cases ran : first past rest with
  | Complete offset value =>
      rw [ran, Outcome.shift] at shifted
      rw [bind_complete _ _ _ _ _ _ shifted, bind_complete _ _ _ _ _ _ ran,
        List.drop_length_add_append, shift_shift]
  | Partial =>
      rw [bind_apply, bind_apply, shifted, ran]
      rfl
  | Failure error =>
      rw [bind_apply, bind_apply, shifted, ran]
      rfl
  | Fault =>
      rw [bind_apply, bind_apply, shifted, ran]
      rfl

private theorem map_id_eq (parser : Parser β ε α) : id <$> parser = parser := by
  funext past input
  change (parser >>= fun value => pure (id value)) past input = _
  rw [bind_apply]
  cases parser past input with
  | Complete offset value => rfl
  | Partial => rfl
  | Failure error => rfl
  | Fault => rfl

private theorem pure_bind_eq (value : α) (second : α → Parser β ε γ) :
    (pure value >>= second) = second value := by
  funext past input
  rw [bind_complete (pure value) second past input 0 value rfl, List.drop_zero, shift_zero]

private theorem bind_bind_eq {δ : Type} (first : Parser β ε α) (second : α → Parser β ε γ)
    (third : γ → Parser β ε δ) :
    (first >>= second) >>= third = first >>= fun value => second value >>= third := by
  funext past input
  simp only [bind_apply]
  cases first past input with
  | Complete offset value =>
      dsimp only
      cases second value past (input.drop offset) with
      | Complete own result =>
          have both := shift_shift (third result past ((input.drop offset).drop own)) offset own
          rw [List.drop_drop] at both
          dsimp only
          rw [List.drop_drop]
          exact both.symm
      | Partial => rfl
      | Failure error => rfl
      | Fault => rfl
  | Partial => rfl
  | Failure error => rfl
  | Fault => rfl

instance : LawfulMonad (Parser β ε) :=
  LawfulMonad.mk' _ map_id_eq pure_bind_eq bind_bind_eq

/-! ## Deciding -/

/-- A parser that never fails to wait. -/
def Never : Option β → List β → Prop := fun _ _ => False

/-- `Among` are the inputs on which the parser is asked to behave. -/
structure Decides (Among : List β → Prop) (Stuck : Option β → List β → Prop) (ahead : Nat)
    (parser : Parser β ε α) : Prop where
  inside : ∀ past input offset value, parser past input = .Complete offset value →
    offset + ahead ≤ input.length
  stable : ∀ past input offset value, parser past input = .Complete offset value →
    ∀ past' other, input.take (offset + ahead) <+: other → Among other →
      parser past' other = .Complete offset value
  waits : ∀ past input offset value, parser past input = .Complete offset value →
    ∀ past' other, other <+: input → other.length < offset + ahead → Among other →
      ¬ Stuck past' other → parser past' other = .Partial
  stops : ∀ past input, Among input → Stuck past input → (parser past input).Stopped

theorem prefix_drop {short long : List β} (starts : short <+: long) (count : Nat) :
    short.drop count <+: long.drop count := by
  obtain ⟨rest, rfl⟩ := starts
  rw [List.drop_append]
  exact List.prefix_append _ _

theorem take_drop_starts {long other : List β} {count more : Nat}
    (starts : long.take (count + more) <+: other) :
    (long.drop count).take more <+: other.drop count := by
  have inner := prefix_drop starts count
  rwa [List.drop_take, Nat.add_sub_cancel_left] at inner

theorem prefix_of_take {long other : List β} {count total : Nat} (fewer : count ≤ total)
    (starts : long.take total <+: other) : long.take count <+: other :=
  (List.take_prefix_take_left fewer).trans starts

theorem take_prefix_of_length {long other : List β} {count : Nat} (starts : other <+: long)
    (enough : count ≤ other.length) : long.take count <+: other := by
  obtain ⟨rest, rfl⟩ := starts
  rw [List.take_append_of_le_length enough]
  exact List.take_prefix count other

variable {Among : List β → Prop} {Stuck Stuck' : Option β → List β → Prop} {ahead : Nat}

theorem Decides.congr {parser : Parser β ε α} (decides : Decides Among Stuck ahead parser)
    (same : ∀ past input, Stuck' past input ↔ Stuck past input) :
    Decides Among Stuck' ahead parser where
  inside := decides.inside
  stable := decides.stable
  waits past input offset value accepted past' other starts short among free :=
    decides.waits past input offset value accepted past' other starts short among
      (fun stuck => free ((same past' other).mpr stuck))
  stops past input among stuck := decides.stops past input among ((same past input).mp stuck)

theorem Decides.within {parser : Parser β ε α} (decides : Decides Among Stuck ahead parser)
    (past : Option β) (input : List β) (offset : Nat) (value : α)
    (accepted : parser past input = .Complete offset value) : offset ≤ input.length := by
  have inside := decides.inside past input offset value accepted
  omega

theorem decides_fail (error : ε) :
    Decides Among Stuck ahead (Parser.fail error : Parser β ε α) where
  inside _ _ _ _ accepted := by cases accepted
  stable _ _ _ _ accepted := by cases accepted
  waits _ _ _ _ accepted := by cases accepted
  stops _ _ _ _ := trivial

def Still (parser : Parser β ε α) : Prop :=
  (∃ value, parser = pure value) ∨ ∃ error, parser = Parser.fail error

theorem Still.bind {first : Parser β ε α} {second : α → Parser β ε γ} (stillFirst : Still first)
    (stillSecond : ∀ value, Still (second value)) : Still (first >>= second) := by
  rcases stillFirst with ⟨value, rfl⟩ | ⟨error, rfl⟩
  · rw [pure_bind]
    exact stillSecond value
  · exact Or.inr ⟨error, rfl⟩

theorem Decides.bind_still {first : Parser β ε α} {second : α → Parser β ε γ}
    (decides : Decides Among Stuck ahead first) (still : ∀ value, Still (second value)) :
    Decides Among Stuck ahead (first >>= second) where
  inside past input total result accepted := by
    obtain ⟨offset, value, own, one, two, rfl⟩ :=
      (bind_eq_complete first second past input total result).mp accepted
    have left := decides.inside past input offset value one
    rcases still value with ⟨given, same⟩ | ⟨error, same⟩
    · rw [same] at two
      cases two
      exact left
    · rw [same] at two
      cases two
  stable past input total result accepted past' other starts among := by
    obtain ⟨offset, value, own, one, two, rfl⟩ :=
      (bind_eq_complete first second past input total result).mp accepted
    rcases still value with ⟨given, same⟩ | ⟨error, same⟩
    · rw [same] at two
      cases two
      have again := decides.stable past input offset value one past' other starts among
      rw [bind_complete first second past' other offset value again, same]
      rfl
    · rw [same] at two
      cases two
  waits past input total result accepted past' other starts short among free := by
    obtain ⟨offset, value, own, one, two, rfl⟩ :=
      (bind_eq_complete first second past input total result).mp accepted
    rcases still value with ⟨given, same⟩ | ⟨error, same⟩
    · rw [same] at two
      cases two
      exact bind_partial first second past' other
        (decides.waits past input offset value one past' other starts short among free)
    · rw [same] at two
      cases two
  stops past input among stuck := bind_stopped first second past input
    (decides.stops past input among stuck)

/-- A sequence is stuck where its first part is, or where the first part accepts
and the second is stuck on the rest. -/
def BindStuck (first : Parser β ε α) (StuckFirst : Option β → List β → Prop)
    (StuckSecond : α → Option β → List β → Prop) (past : Option β) (input : List β) : Prop :=
  StuckFirst past input ∨ ∃ offset value, first past input = .Complete offset value ∧
    StuckSecond value past (input.drop offset)

/-- A sequence decides when its second part reads at least what the first part
has looked at ahead. -/
theorem Decides.bind {first : Parser β ε α} {second : α → Parser β ε γ} {beyond : Nat}
    {StuckSecond : α → Option β → List β → Prop}
    (dropped : ∀ input count, Among input → Among (input.drop count))
    (decidesFirst : Decides Among Stuck beyond first)
    (decidesSecond : ∀ value, Decides Among (StuckSecond value) ahead (second value))
    (reads : ∀ value past input offset result,
      second value past input = .Complete offset result → beyond ≤ offset + ahead) :
    Decides Among (BindStuck first Stuck StuckSecond) ahead (first >>= second) where
  inside past input total result accepted := by
    obtain ⟨offset, value, own, one, two, rfl⟩ :=
      (bind_eq_complete first second past input total result).mp accepted
    have left := decidesFirst.inside past input offset value one
    have right := (decidesSecond value).inside past _ own result two
    rw [List.length_drop] at right
    omega
  stable past input total result accepted past' other starts among := by
    obtain ⟨offset, value, own, one, two, rfl⟩ :=
      (bind_eq_complete first second past input total result).mp accepted
    have read := reads value past _ own result two
    have again := decidesFirst.stable past input offset value one past' other
      (prefix_of_take (by omega) starts) among
    rw [bind_complete first second past' other offset value again]
    rw [Nat.add_assoc] at starts
    rw [(decidesSecond value).stable past _ own result two past' (other.drop offset)
      (take_drop_starts starts) (dropped other offset among)]
    rfl
  waits past input total result accepted past' other starts short among free := by
    obtain ⟨offset, value, own, one, two, rfl⟩ :=
      (bind_eq_complete first second past input total result).mp accepted
    by_cases early : other.length < offset + beyond
    · exact bind_partial first second past' other (decidesFirst.waits past input offset value one
        past' other starts early among (fun stuck => free (Or.inl stuck)))
    · have again := decidesFirst.stable past input offset value one past' other
        (take_prefix_of_length starts (Nat.le_of_not_lt early)) among
      rw [bind_complete first second past' other offset value again, shift_eq_partial]
      refine (decidesSecond value).waits past _ own result two past' _ (prefix_drop starts offset)
        ?_ (dropped other offset among) (fun stuck => free (Or.inr ⟨offset, value, again, stuck⟩))
      rw [List.length_drop]
      have read := reads value past _ own result two
      omega
  stops past input among stuck := by
    rcases stuck with here | ⟨offset, value, accepted, later⟩
    · exact bind_stopped first second past input (decidesFirst.stops past input among here)
    · rw [bind_complete first second past input offset value accepted, shift_stopped]
      exact (decidesSecond value).stops past _ (dropped input offset among) later

theorem Decides.bind_never {first : Parser β ε α} {second : α → Parser β ε γ} {beyond : Nat}
    (dropped : ∀ input count, Among input → Among (input.drop count))
    (decidesFirst : Decides Among Never beyond first)
    (decidesSecond : ∀ value, Decides Among Never ahead (second value))
    (reads : ∀ value past input offset result,
      second value past input = .Complete offset result → beyond ≤ offset + ahead) :
    Decides Among Never ahead (first >>= second) := by
  refine (Decides.bind dropped decidesFirst decidesSecond reads).congr fun past input => ?_
  constructor
  · intro never
    exact never.elim
  · intro stuck
    rcases stuck with never | ⟨_, _, _, never⟩
    · exact never
    · exact never

/-- A second part that is stuck on nothing but the empty input never is behind a
first part that has looked ahead. -/
theorem Decides.bind_looked {first : Parser β ε α} {second : α → Parser β ε γ} {beyond : Nat}
    (dropped : ∀ input count, Among input → Among (input.drop count))
    (decidesFirst : Decides Among Never beyond first) (looked : 0 < beyond)
    (decidesSecond : ∀ value, Decides Among Stuck ahead (second value))
    (empty : ∀ past input, Stuck past input → input = [])
    (reads : ∀ value past input offset result,
      second value past input = .Complete offset result → beyond ≤ offset + ahead) :
    Decides Among Never ahead (first >>= second) := by
  refine (Decides.bind dropped decidesFirst decidesSecond reads).congr fun past input => ?_
  constructor
  · intro never
    exact never.elim
  · intro stuck
    rcases stuck with never | ⟨offset, value, accepted, stuck⟩
    · exact never
    · have rest := congrArg List.length (empty past _ stuck)
      have inside := decidesFirst.inside past input offset value accepted
      rw [List.length_drop, List.length_nil] at rest
      omega

/-- On prefixes a parser that decides waits exactly where it is not stuck. -/
theorem Decides.partial_iff {parser : Parser β ε α} (decides : Decides Among Stuck ahead parser)
    (past past' : Option β) (input other : List β) (offset : Nat) (value : α)
    (accepted : parser past input = .Complete offset value) (starts : other <+: input)
    (short : other.length < offset + ahead) (among : Among other) :
    parser past' other = .Partial ↔ ¬ Stuck past' other := by
  constructor
  · intro waiting stuck
    have stopped := decides.stops past' other among stuck
    rw [waiting] at stopped
    exact stopped
  · exact decides.waits past input offset value accepted past' other starts short among

theorem Decides.bind_waits {first : Parser β ε α} (decides : Decides Among Stuck ahead first)
    (second : α → Parser β ε γ) (past past' : Option β) (input other : List β) (offset : Nat)
    (value : α) (accepted : first past input = .Complete offset value) (starts : other <+: input)
    (among : Among other) (free : ¬ Stuck past' other)
    (waits : first past' other = .Complete offset value →
      second value past' (other.drop offset) = .Partial) :
    (first >>= second) past' other = .Partial := by
  by_cases early : other.length < offset + ahead
  · exact bind_partial first second past' other
      (decides.waits past input offset value accepted past' other starts early among free)
  · have again := decides.stable past input offset value accepted past' other
      (take_prefix_of_length starts (Nat.le_of_not_lt early)) among
    rw [bind_complete first second past' other offset value again, waits again]
    rfl

theorem Decides.still_bind {first : Parser β ε α} {second : α → Parser β ε γ}
    (still : Still first) (decides : ∀ value, Decides Among Stuck ahead (second value)) :
    Decides Among Stuck ahead (first >>= second) := by
  rcases still with ⟨value, rfl⟩ | ⟨error, rfl⟩
  · rw [pure_bind]
    exact decides value
  · exact decides_fail error

/-! ## Reading -/

def TakesAtLeast (count : Nat) (parser : Parser β ε α) : Prop :=
  ∀ past input offset value, parser past input = .Complete offset value → count ≤ offset

def EndsWith (last : β) (parser : Parser β ε α) : Prop :=
  ∀ past input offset value, parser past input = .Complete offset value →
    (input.take offset).getLast? = some last

theorem TakesAtLeast.bind_first {count : Nat} {first : Parser β ε α}
    (takes : TakesAtLeast count first) (second : α → Parser β ε γ) :
    TakesAtLeast count (first >>= second) := by
  intro past input total result accepted
  obtain ⟨offset, value, own, one, _, rfl⟩ :=
    (bind_eq_complete first second past input total result).mp accepted
  have := takes past input offset value one
  omega

theorem TakesAtLeast.bind_second {count : Nat} (first : Parser β ε α)
    {second : α → Parser β ε γ} (takes : ∀ value, TakesAtLeast count (second value)) :
    TakesAtLeast count (first >>= second) := by
  intro past input total result accepted
  obtain ⟨offset, value, own, _, two, rfl⟩ :=
    (bind_eq_complete first second past input total result).mp accepted
  have := takes value past _ own result two
  omega

theorem EndsWith.takes {last : β} {parser : Parser β ε α} (ends : EndsWith last parser) :
    TakesAtLeast 1 parser := by
  intro past input offset value accepted
  have final := ends past input offset value accepted
  cases offset with
  | zero => contradiction
  | succ before => omega

theorem EndsWith.bind {last : β} (first : Parser β ε α) {second : α → Parser β ε γ}
    (ends : ∀ value, EndsWith last (second value)) : EndsWith last (first >>= second) := by
  intro past input total result accepted
  obtain ⟨offset, value, own, _, two, rfl⟩ :=
    (bind_eq_complete first second past input total result).mp accepted
  rw [List.take_add, List.getLast?_append, ends value past _ own result two]
  rfl

theorem EndsWith.bind_still {last : β} {first : Parser β ε α} {second : α → Parser β ε γ}
    (ends : EndsWith last first) (still : ∀ value, Still (second value)) :
    EndsWith last (first >>= second) := by
  intro past input total result accepted
  obtain ⟨offset, value, own, one, two, rfl⟩ :=
    (bind_eq_complete first second past input total result).mp accepted
  rcases still value with ⟨given, same⟩ | ⟨error, same⟩
  · rw [same] at two
    cases two
    exact ends past input offset value one
  · rw [same] at two
    cases two

def Consumes (parser : Parser β ε α) (past : Option β) (input : List β) : Prop :=
  ∃ value, parser past input = .Complete input.length value

theorem Consumes.getLast? {last : β} {parser : Parser β ε α} {past : Option β} {input : List β}
    (consumes : Consumes parser past input) (ends : EndsWith last parser) :
    input.getLast? = some last := by
  obtain ⟨value, accepted⟩ := consumes
  have final := ends past input input.length value accepted
  rwa [List.take_length] at final

theorem consumes_iff (parser : Parser β ε α) (past : Option β) (input : List β)
    (inside : ∀ offset value, parser past input = .Complete offset value →
      offset ≤ input.length) :
    Consumes parser past input ↔
      ∃ offset value, parser past input = .Complete offset value ∧ input.drop offset = [] := by
  constructor
  · intro ⟨value, accepted⟩
    exact ⟨_, value, accepted, List.drop_length⟩
  · intro ⟨offset, value, accepted, nothing⟩
    have all := inside offset value accepted
    have whole : offset = input.length :=
      Nat.le_antisymm all (List.drop_eq_nil_iff.mp nothing)
    exact ⟨value, by rw [accepted, whole]⟩

theorem consumes_bind (first : Parser β ε α) (second : α → Parser β ε γ) (past : Option β)
    (input : List β) (inside : ∀ offset value, first past input = .Complete offset value →
      offset ≤ input.length) :
    Consumes (first >>= second) past input ↔ ∃ offset value,
      first past input = .Complete offset value ∧
        Consumes (second value) past (input.drop offset) := by
  constructor
  · intro ⟨result, accepted⟩
    obtain ⟨offset, value, own, one, two, sum⟩ :=
      (bind_eq_complete first second past input input.length result).mp accepted
    refine ⟨offset, value, one, result, ?_⟩
    rw [two, List.length_drop, sum, Nat.add_sub_cancel_left]
  · intro ⟨offset, value, one, result, two⟩
    refine ⟨result, (bind_eq_complete first second past input input.length result).mpr
      ⟨offset, value, _, one, two, ?_⟩⟩
    have := inside offset value one
    rw [List.length_drop]
    omega

theorem consumes_map (parser : Parser β ε α) (made : α → γ) (past : Option β) (input : List β) :
    Consumes (parser >>= fun value => pure (made value)) past input ↔
      Consumes parser past input := by
  constructor
  · intro ⟨_, accepted⟩
    obtain ⟨offset, value, own, one, two, sum⟩ :=
      (bind_eq_complete _ _ past input input.length _).mp accepted
    cases two
    exact ⟨value, by rw [one, sum, Nat.add_zero]⟩
  · intro ⟨value, accepted⟩
    exact ⟨made value, (bind_eq_complete _ _ past input input.length _).mpr
      ⟨input.length, value, 0, accepted, rfl, rfl⟩⟩

/-- Where the first part looks at nothing but what it takes, the input is cut into
what the one and what the other takes. -/
theorem Decides.consumes_append_iff {first : Parser β ε α}
    (decides : Decides (fun _ => True) Stuck 0 first) (second : Parser β ε γ) (past : Option β)
    (input : List β) :
    Consumes (first >>= fun _ => second) past input ↔ ∃ front back, input = front ++ back ∧
      Consumes first past front ∧ Consumes second past back := by
  rw [consumes_bind first _ past input (decides.within past input)]
  constructor
  · intro ⟨offset, value, accepted, rest⟩
    have inside := decides.within past input offset value accepted
    refine ⟨input.take offset, input.drop offset, (List.take_append_drop offset input).symm,
      ⟨value, ?_⟩, rest⟩
    rw [List.length_take, Nat.min_eq_left inside]
    exact decides.stable past input offset value accepted past _ (List.prefix_refl _) trivial
  · rintro ⟨front, back, rfl, ⟨value, accepted⟩, rest⟩
    refine ⟨front.length, value, ?_, ?_⟩
    · refine decides.stable past front front.length value accepted past _ ?_ trivial
      rw [Nat.add_zero, List.take_length]
      exact List.prefix_append front back
    · rwa [List.drop_left]

theorem bindStuck_first (first : Parser β ε α) (past : Option β) (input : List β) :
    BindStuck first Stuck (fun _ => Never) past input ↔ Stuck past input := by
  constructor
  · intro stuck
    rcases stuck with here | ⟨_, _, _, never⟩
    · exact here
    · exact never.elim
  · exact Or.inl

theorem bindStuck_congr (first : Parser β ε α) {One Other : α → Option β → List β → Prop}
    (past : Option β) (input : List β)
    (same : ∀ value rest, One value past rest ↔ Other value past rest) :
    BindStuck first Stuck One past input ↔ BindStuck first Stuck Other past input := by
  rw [BindStuck, BindStuck]
  exact or_congr_right (exists_congr fun _ => exists_congr fun _ => and_congr_right fun _ =>
    same _ _)

theorem bindStuck_last (first : Parser β ε α) (Behind : Option β → Prop) (past : Option β)
    (input : List β) (inside : ∀ offset value, first past input = .Complete offset value →
      offset ≤ input.length) :
    BindStuck first Never (fun _ past rest => rest = [] ∧ Behind past) past input ↔
      Consumes first past input ∧ Behind past := by
  rw [consumes_iff first past input inside]
  constructor
  · intro stuck
    rcases stuck with never | ⟨offset, value, accepted, nothing, behind⟩
    · exact never.elim
    · exact ⟨⟨offset, value, accepted, nothing⟩, behind⟩
  · intro ⟨⟨offset, value, accepted, nothing⟩, behind⟩
    exact Or.inr ⟨offset, value, accepted, nothing, behind⟩

theorem bindStuck_consumes (first : Parser β ε α) (second : α → Parser β ε γ)
    (Behind : Option β → Prop) (past : Option β) (input : List β)
    (inside : ∀ offset value, first past input = .Complete offset value →
      offset ≤ input.length) :
    BindStuck first Never (fun value past rest => Consumes (second value) past rest ∧ Behind past)
        past input ↔ Consumes (first >>= second) past input ∧ Behind past := by
  rw [consumes_bind first second past input inside]
  constructor
  · intro stuck
    rcases stuck with never | ⟨offset, value, accepted, rest, behind⟩
    · exact never.elim
    · exact ⟨⟨offset, value, accepted, rest⟩, behind⟩
  · intro ⟨⟨offset, value, accepted, rest⟩, behind⟩
    exact Or.inr ⟨offset, value, accepted, rest, behind⟩

/-! ## Reading back -/

/-- Before whatever `Follows`, the parser takes exactly `written`. -/
def Reads (Follows : List β → Prop) (parser : Parser β ε α) (written : List β) (value : α) : Prop :=
  ∀ past rest, Follows rest → parser past (written ++ rest) = .Complete written.length value

variable {Follows Between : List β → Prop}

theorem reads_pure (value : α) : Reads Follows (pure value : Parser β ε α) [] value :=
  fun _ _ _ => rfl

theorem Reads.bind {first : Parser β ε α} {second : α → Parser β ε γ} {front back : List β}
    {value : α} {result : γ} (one : Reads Between first front value)
    (two : Reads Follows (second value) back result)
    (meets : ∀ rest, Follows rest → Between (back ++ rest)) :
    Reads Follows (first >>= second) (front ++ back) result := by
  intro past rest follows
  have accepted := one past (back ++ rest) (meets rest follows)
  rw [List.append_assoc, bind_complete first second past _ _ value accepted, List.drop_left,
    two past rest follows, Outcome.shift, List.length_append]

theorem Reads.bind_pure {first : Parser β ε α} {second : α → Parser β ε γ} {front : List β}
    {value : α} {result : γ} (one : Reads Follows first front value)
    (two : second value = pure result) : Reads Follows (first >>= second) front result := by
  have made : Reads Follows (second value) [] result := by
    rw [two]
    exact reads_pure result
  have both := one.bind made fun rest follows => follows
  rwa [List.append_nil] at both

end IncrementalParsing
