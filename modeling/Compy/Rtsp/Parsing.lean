import Compy.Library.IncrementalParsing
import Compy.Library.Searching

/-!
# The matchers

`parsing.c` and the error type.  A `CharSlice99` is the list of its bytes, the
argument `past` the byte behind it: `compy_match_numeric`, `compy_match_ident`
and `compy_match_header_name` look at `input.ptr[0]` before they know that there
is one.  A matcher returns the bytes it has gone over, which its callers cut out
of the input by pointer difference.
-/

set_option autoImplicit false

namespace Compy.Rtsp

open IncrementalParsing Searching

/-- A slice made from an ASCII string literal. -/
def charSlice (str : String) : List UInt8 := str.toList.map Char.toUInt8

def crlf : List UInt8 := charSlice "\r\n"

inductive ParseType where
  | Int
  | Ident
  | HeaderName
  deriving DecidableEq, Repr

inductive ParseError where
  | ContentLength (value : List UInt8)
  | StrMismatch (expected actual : List UInt8)
  | TypeMismatch (kind : ParseType) (value : List UInt8)
  | HeaderMapOverflow
  | MissingCSeq
  | InvalidCSeq (value : List UInt8)
  deriving DecidableEq, Repr

abbrev Parser := IncrementalParsing.Parser UInt8 ParseError

def matchUntilLoop (matcher : UInt8 → Bool) (offset : Nat) : List UInt8 → Option Nat
  | [] => none
  | c :: rest => if ¬ matcher c then some offset else matchUntilLoop matcher (offset + 1) rest

def matchUntil (matcher : UInt8 → Bool) : Parser (List UInt8) := fun _ input =>
  match matchUntilLoop matcher 0 input with
  | some offset => .Complete offset (input.take offset)
  | none => .Partial

def whitespaceMatcher (c : UInt8) : Bool := c == ' '.toUInt8

def nonWhitespaceMatcher (c : UInt8) : Bool := !whitespaceMatcher c

def isDigit (c : UInt8) : Bool := '0'.toUInt8 ≤ c && c ≤ '9'.toUInt8

def isAlpha (c : UInt8) : Bool :=
  'A'.toUInt8 ≤ c && c ≤ 'Z'.toUInt8 || 'a'.toUInt8 ≤ c && c ≤ 'z'.toUInt8

def identMatcher (c : UInt8) : Bool := isAlpha c || isDigit c || c == '_'.toUInt8

def headerNameCharMatcher (c : UInt8) : Bool := isAlpha c || c == '-'.toUInt8

def matchUntilStrLoop (str : List UInt8) (offset : Nat) : List UInt8 → Option Nat
  | [] => none
  | c :: rest =>
      if (c :: rest).length < str.length then none
      else if (c :: rest).take str.length = str then some (offset + str.length)
      else matchUntilStrLoop str (offset + 1) rest

def matchUntilStr (str : List UInt8) : Parser (List UInt8) := fun _ input =>
  match matchUntilStrLoop str 0 input with
  | some offset => .Complete offset (input.take offset)
  | none => .Partial

def matchUntilCrlf : Parser (List UInt8) := matchUntilStr crlf

def matchChar (c : UInt8) : Parser (List UInt8) := matchUntil (fun other => other == c)

def matchStr (str : List UInt8) : Parser (List UInt8) := fun _ input =>
  let minLen := min input.length str.length
  if input.take minLen ≠ str.take minLen then .Failure (.StrMismatch str (input.take minLen))
  else if input.length < str.length then .Partial
  else .Complete str.length (input.take str.length)

def matchWhitespaces : Parser (List UInt8) := matchUntil whitespaceMatcher

def matchNonWhitespaces : Parser (List UInt8) := matchUntil nonWhitespaceMatcher

/-- The common body of the three matchers that want at least one byte. -/
def matchSome (kind : ParseType) (matcher : UInt8 → Bool) : Parser (List UInt8) :=
  fun past input =>
    match input.head?.or past with
    | none => .Fault
    | some c =>
        if ¬ matcher c then .Failure (.TypeMismatch kind input) else matchUntil matcher past input

def matchNumeric : Parser (List UInt8) := matchSome .Int isDigit

def matchIdent : Parser (List UInt8) := matchSome .Ident identMatcher

def matchHeaderName : Parser (List UInt8) := matchSome .HeaderName headerNameCharMatcher

/-! ## What the matchers accept -/

variable {Among : List UInt8 → Prop}

theorem matched_ne {matcher : UInt8 → Bool} {c other : UInt8} (matched : matcher c = true)
    (unmatched : matcher other = false) : c ≠ other := by
  rintro rfl
  rw [matched] at unmatched
  contradiction

theorem matchUntilLoop_found (matcher : UInt8 → Bool) (offset : Nat) (front : List UInt8)
    (c : UInt8) (rest : List UInt8) (all : ∀ other ∈ front, matcher other = true)
    (stop : matcher c = false) :
    matchUntilLoop matcher offset (front ++ c :: rest) = some (offset + front.length) := by
  induction front generalizing offset with
  | nil => simp [matchUntilLoop, stop]
  | cons first front ih =>
      have here : matcher first = true := all first List.mem_cons_self
      have later := ih (offset + 1) fun other member => all other (List.mem_cons_of_mem _ member)
      rw [List.cons_append, matchUntilLoop, if_neg (not_not.mpr here), later, List.length_cons]
      congr 1
      omega

theorem matchUntilLoop_none (matcher : UInt8 → Bool) (offset : Nat) (input : List UInt8)
    (all : ∀ other ∈ input, matcher other = true) :
    matchUntilLoop matcher offset input = none := by
  induction input generalizing offset with
  | nil => rfl
  | cons first rest ih =>
      have here : matcher first = true := all first List.mem_cons_self
      rw [matchUntilLoop, if_neg (not_not.mpr here)]
      exact ih (offset + 1) fun other member => all other (List.mem_cons_of_mem _ member)

theorem all_or_first (matcher : UInt8 → Bool) (input : List UInt8) :
    (∀ other ∈ input, matcher other = true) ∨
      ∃ front c rest, input = front ++ c :: rest ∧ (∀ other ∈ front, matcher other = true) ∧
        matcher c = false := by
  induction input with
  | nil => exact Or.inl (fun _ member => absurd member List.not_mem_nil)
  | cons first rest ih =>
      cases here : matcher first with
      | false => exact Or.inr ⟨[], first, rest, rfl, fun _ member => absurd member List.not_mem_nil,
          here⟩
      | true =>
          rcases ih with all | ⟨front, c, tail, rfl, all, stop⟩
          · exact Or.inl (List.forall_mem_cons.mpr ⟨here, all⟩)
          · exact Or.inr ⟨first :: front, c, tail, rfl, List.forall_mem_cons.mpr ⟨here, all⟩, stop⟩

theorem matchUntil_found (matcher : UInt8 → Bool) (past : Option UInt8) (front : List UInt8)
    (c : UInt8) (rest : List UInt8) (all : ∀ other ∈ front, matcher other = true)
    (stop : matcher c = false) :
    matchUntil matcher past (front ++ c :: rest) = .Complete front.length front := by
  rw [matchUntil, matchUntilLoop_found matcher 0 front c rest all stop, Nat.zero_add]
  dsimp only
  rw [List.take_left]

theorem matchUntil_waits (matcher : UInt8 → Bool) (past : Option UInt8) (input : List UInt8)
    (all : ∀ other ∈ input, matcher other = true) :
    matchUntil matcher past input = .Partial := by
  rw [matchUntil, matchUntilLoop_none matcher 0 input all]

theorem matchUntil_complete (matcher : UInt8 → Bool) (past : Option UInt8) (input : List UInt8)
    (offset : Nat) (value : List UInt8)
    (accepted : matchUntil matcher past input = .Complete offset value) :
    offset = value.length ∧ (∀ other ∈ value, matcher other = true) ∧
      ∃ c rest, input = value ++ c :: rest ∧ matcher c = false := by
  rcases all_or_first matcher input with all | ⟨front, c, rest, rfl, all, stop⟩
  · rw [matchUntil_waits matcher past input all] at accepted
    contradiction
  · rw [matchUntil_found matcher past front c rest all stop] at accepted
    cases accepted
    exact ⟨rfl, all, c, rest, rfl, stop⟩

/-- The matcher goes over the longest front that matches, if there is something behind it. -/
theorem matchUntil_longest {matcher : UInt8 → Bool} {input : List UInt8} {k : Nat}
    (longest : LongestFront matcher input k) (past : Option UInt8) :
    matchUntil matcher past input =
      if k < input.length then .Complete k (input.take k) else .Partial := by
  rcases all_or_first matcher input with all | ⟨front, c, rest, rfl, all, stop⟩
  · rw [longest.unique (longestFront_whole all), if_neg (Nat.lt_irrefl _)]
    exact matchUntil_waits matcher past input all
  · rw [longest.unique (longestFront_stops all stop), if_pos (by simp), List.take_left]
    exact matchUntil_found matcher past front c rest all stop

theorem decides_matchUntil (matcher : UInt8 → Bool) :
    Decides Among Never 1 (matchUntil matcher) where
  inside past input offset value accepted := by
    obtain ⟨rfl, _, c, rest, rfl, _⟩ := matchUntil_complete matcher past input offset value accepted
    rw [List.length_append, List.length_cons]
    omega
  stable past input offset value accepted past' other starts _ := by
    obtain ⟨rfl, all, c, rest, rfl, stop⟩ :=
      matchUntil_complete matcher past input offset value accepted
    obtain ⟨tail, rfl⟩ := starts
    have front : (value ++ c :: rest).take (value.length + 1) = value ++ [c] := by
      rw [List.take_length_add_append]
      rfl
    rw [front, List.append_assoc]
    exact matchUntil_found matcher past' value c tail all stop
  waits past input offset value accepted past' other starts short _ _ := by
    obtain ⟨rfl, all, c, rest, rfl, _⟩ :=
      matchUntil_complete matcher past input offset value accepted
    have within : other <+: value :=
      List.prefix_of_prefix_length_le starts (List.prefix_append _ _) (by omega)
    exact matchUntil_waits matcher past' other fun byte member => all byte (within.mem member)
  stops _ _ _ stuck := stuck.elim

/-- `input.ptr[0]` lies behind an empty slice, and is not what is wanted. -/
def NoneBehind (matcher : UInt8 → Bool) (past : Option UInt8) (input : List UInt8) : Prop :=
  input = [] ∧ ∀ c, past = some c → matcher c = false

theorem matchSome_cons (kind : ParseType) (matcher : UInt8 → Bool) (past : Option UInt8)
    (c : UInt8) (rest : List UInt8) (wanted : matcher c = true) :
    matchSome kind matcher past (c :: rest) = matchUntil matcher past (c :: rest) := by
  simp only [matchSome, List.head?_cons, Option.some_or, if_neg (not_not.mpr wanted)]

theorem matchSome_complete (kind : ParseType) (matcher : UInt8 → Bool) (past : Option UInt8)
    (input : List UInt8) (offset : Nat) (value : List UInt8)
    (accepted : matchSome kind matcher past input = .Complete offset value) :
    matchUntil matcher past input = .Complete offset value ∧
      ∃ c rest, input = c :: rest ∧ matcher c = true := by
  cases input with
  | nil =>
      simp only [matchSome, List.head?_nil, Option.none_or] at accepted
      split at accepted
      · contradiction
      · split at accepted
        · contradiction
        · cases accepted
  | cons c rest =>
      cases wanted : matcher c with
      | true =>
          rw [matchSome_cons kind matcher past c rest wanted] at accepted
          exact ⟨accepted, c, rest, rfl, wanted⟩
      | false => simp [matchSome, wanted] at accepted

theorem decides_matchSome (kind : ParseType) (matcher : UInt8 → Bool) :
    Decides Among (NoneBehind matcher) 1 (matchSome kind matcher) where
  inside past input offset value accepted :=
    (@decides_matchUntil Among matcher).inside past input offset value
      (matchSome_complete kind matcher past input offset value accepted).1
  stable past input offset value accepted past' other starts among := by
    obtain ⟨until_, c, rest, rfl, wanted⟩ :=
      matchSome_complete kind matcher past input offset value accepted
    have again := (decides_matchUntil matcher).stable past _ offset value until_ past' other starts
      among
    obtain ⟨tail, rfl⟩ := starts
    rw [List.take_succ_cons, List.cons_append] at again ⊢
    rw [matchSome_cons kind matcher past' c _ wanted]
    exact again
  waits past input offset value accepted past' other starts short among free := by
    obtain ⟨until_, c, rest, rfl, wanted⟩ :=
      matchSome_complete kind matcher past input offset value accepted
    cases other with
    | nil =>
        cases past' with
        | none => exact absurd ⟨rfl, fun c impossible => by contradiction⟩ free
        | some behind =>
            cases matched : matcher behind with
            | true => simp [matchSome, matched, matchUntil, matchUntilLoop]
            | false =>
                refine absurd ⟨rfl, fun c same => ?_⟩ free
                cases same
                exact matched
    | cons first others =>
        obtain ⟨tail, same⟩ := starts
        cases same
        rw [matchSome_cons kind matcher past' c _ wanted]
        exact (decides_matchUntil matcher).waits past _ offset value until_ past' _
          (List.prefix_append _ _) short among (fun never => never)
  stops past input among stuck := by
    obtain ⟨rfl, behind⟩ := stuck
    cases past with
    | none => trivial
    | some c => simp [matchSome, behind c rfl, Outcome.Stopped]

theorem matchStr_found (str : List UInt8) (past : Option UInt8) (rest : List UInt8) :
    matchStr str past (str ++ rest) = .Complete str.length str := by
  have fewer : min (str ++ rest).length str.length = str.length := by simp
  simp only [matchStr, fewer, List.take_left, List.take_length]
  rw [if_neg (not_not.mpr rfl), if_neg (by simp)]

theorem matchStr_waits (str : List UInt8) (past : Option UInt8) (input : List UInt8)
    (starts : input <+: str) (short : input.length < str.length) :
    matchStr str past input = .Partial := by
  have fewer : min input.length str.length = input.length := by omega
  simp only [matchStr, fewer, List.take_length]
  rw [if_neg (not_not.mpr (List.prefix_iff_eq_take.mp starts)), if_pos short]

theorem matchStr_complete (str : List UInt8) (past : Option UInt8) (input : List UInt8)
    (offset : Nat) (value : List UInt8)
    (accepted : matchStr str past input = .Complete offset value) :
    offset = str.length ∧ value = str ∧ str <+: input := by
  simp only [matchStr] at accepted
  split at accepted
  · contradiction
  · rename_i same
    split at accepted
    · contradiction
    · rename_i enough
      have fewer : min input.length str.length = str.length := by omega
      rw [fewer, List.take_length, not_not] at same
      cases accepted
      exact ⟨rfl, same, List.prefix_iff_eq_take.mpr same.symm⟩

theorem decides_matchStr (str : List UInt8) : Decides Among Never 0 (matchStr str) where
  inside past input offset value accepted := by
    obtain ⟨rfl, _, starts⟩ := matchStr_complete str past input offset value accepted
    exact starts.length_le
  stable past input offset value accepted past' other starts _ := by
    obtain ⟨rfl, rfl, inside⟩ := matchStr_complete str past input offset value accepted
    rw [Nat.add_zero, ← List.prefix_iff_eq_take.mp inside] at starts
    obtain ⟨rest, rfl⟩ := starts
    exact matchStr_found _ past' rest
  waits past input offset value accepted past' other starts short _ _ := by
    obtain ⟨rfl, _, inside⟩ := matchStr_complete str past input offset value accepted
    exact matchStr_waits str past' other
      (List.prefix_of_prefix_length_le starts inside (by omega)) short
  stops _ _ _ stuck := stuck.elim

/-! ## Searching -/

/-- The loop stops behind the first place of what it looks for, and nowhere else. -/
theorem matchUntilStrLoop_iff {str : List UInt8} (present : str ≠ []) (offset : Nat)
    (input : List UInt8) (found : Nat) :
    matchUntilStrLoop str offset input = some found ↔
      ∃ i, FirstAt str input i ∧ found = offset + i + str.length := by
  induction input generalizing offset with
  | nil =>
      constructor
      · intro accepted
        contradiction
      · intro ⟨i, first, _⟩
        have fits := first.occurs.fits present
        have positive := List.length_pos_iff.mpr present
        rw [List.length_nil] at fits
        omega
  | cons c rest ih =>
      rw [matchUntilStrLoop]
      by_cases short : (c :: rest).length < str.length
      · rw [if_pos short]
        constructor
        · intro accepted
          contradiction
        · intro ⟨i, first, _⟩
          have fits := first.occurs.fits present
          omega
      rw [if_neg short]
      by_cases starts : str <+: c :: rest
      · rw [if_pos (List.prefix_iff_eq_take.mp starts).symm, Option.some_inj]
        have here := firstAt_zero.mpr starts
        constructor
        · intro same
          exact ⟨0, here, same.symm⟩
        · intro ⟨i, first, same⟩
          rw [same, first.unique here, Nat.add_zero]
      · rw [if_neg fun same => starts (List.prefix_iff_eq_take.mpr same.symm), ih]
        constructor
        · intro ⟨i, first, same⟩
          exact ⟨i + 1, (firstAt_succ starts).mpr first, by omega⟩
        · intro ⟨i, first, same⟩
          cases i with
          | zero => exact absurd (firstAt_zero.mp first) starts
          | succ i => exact ⟨i, (firstAt_succ starts).mp first, by omega⟩

section

variable {str : List UInt8} (present : str ≠ [])

include present

theorem matchUntilStr_complete (past : Option UInt8) (input : List UInt8) (offset : Nat)
    (value : List UInt8) : matchUntilStr str past input = .Complete offset value ↔
      ∃ i, FirstAt str input i ∧ offset = i + str.length ∧ value = input.take offset := by
  have loop (found : Nat) := matchUntilStrLoop_iff present 0 input found
  rw [matchUntilStr]
  cases search : matchUntilStrLoop str 0 input with
  | none =>
      constructor
      · intro accepted
        contradiction
      · intro ⟨i, first, _⟩
        rw [(loop _).mpr ⟨i, first, rfl⟩] at search
        contradiction
  | some found =>
      obtain ⟨i, first, same⟩ := (loop found).mp search
      rw [Nat.zero_add] at same
      simp only [Outcome.Complete.injEq]
      constructor
      · rintro ⟨rfl, rfl⟩
        exact ⟨i, first, same, rfl⟩
      · rintro ⟨j, other, rfl, rfl⟩
        have place : found = j + str.length := by rw [same, first.unique other]
        exact ⟨place, by rw [place]⟩

theorem matchUntilStr_waits (past : Option UInt8) (input : List UInt8) :
    matchUntilStr str past input = .Partial ↔ ¬ str <:+: input := by
  have loop (found : Nat) := matchUntilStrLoop_iff present 0 input found
  rw [matchUntilStr, ← exists_firstAt_iff]
  cases search : matchUntilStrLoop str 0 input with
  | none =>
      refine iff_of_true rfl ?_
      intro ⟨i, first⟩
      rw [(loop _).mpr ⟨i, first, rfl⟩] at search
      contradiction
  | some found =>
      obtain ⟨i, first, _⟩ := (loop found).mp search
      refine iff_of_false ?_ (not_not.mpr ⟨i, first⟩)
      intro waiting
      contradiction

theorem matchUntilStr_found {input : List UInt8} {i : Nat} (first : FirstAt str input i)
    (past : Option UInt8) : matchUntilStr str past input =
      .Complete (i + str.length) (input.take (i + str.length)) :=
  (matchUntilStr_complete present past input _ _).mpr ⟨i, first, rfl, rfl⟩

theorem decides_matchUntilStr : Decides Among Never 0 (matchUntilStr str) where
  inside past input offset value accepted := by
    obtain ⟨i, first, rfl, _⟩ := (matchUntilStr_complete present past input _ _).mp accepted
    exact first.occurs.fits present
  stable past input offset value accepted past' other starts _ := by
    obtain ⟨i, first, rfl, rfl⟩ := (matchUntilStr_complete present past input _ _).mp accepted
    have fits := first.occurs.fits present
    have size : (input.take (i + str.length)).length = i + str.length :=
      List.length_take_of_le fits
    have front := first.front (List.take_prefix (i + str.length) input) (Nat.le_of_eq size.symm)
    rw [matchUntilStr_found present (front.of_front starts (Nat.le_of_eq size.symm))]
    congr 1
    have whole := List.prefix_iff_eq_take.mp starts
    rw [Nat.add_zero, size] at whole
    exact whole.symm
  waits past input offset value accepted past' other starts short _ _ := by
    obtain ⟨i, first, rfl, rfl⟩ := (matchUntilStr_complete present past input _ _).mp accepted
    rw [matchUntilStr_waits present, ← exists_firstAt_iff]
    intro ⟨j, early⟩
    -- The place in the prefix would be the one that the search has found behind it.
    have fits := early.occurs.fits present
    have same := (early.of_front starts fits).unique first
    omega
  stops _ _ _ stuck := stuck.elim

end

theorem crlf_ne_nil : crlf ≠ [] := List.cons_ne_nil _ _

/-! ## Where the scans end -/

theorem exists_longestFront (matcher : UInt8 → Bool) (input : List UInt8) :
    ∃ k, LongestFront matcher input k := by
  rcases all_or_first matcher input with all | ⟨front, c, rest, rfl, all, stop⟩
  · exact ⟨_, longestFront_whole all⟩
  · exact ⟨_, longestFront_stops all stop⟩

/-- Both scans end at the first place where they may, and wait if there is none. -/
theorem scans_end_first (str : List UInt8) (present : str ≠ []) (matcher : UInt8 → Bool)
    (past : Option UInt8) (input : List UInt8) :
    (∀ i, (∃ value, matchUntilStr str past input = .Complete (i + str.length) value) ↔
      FirstAt str input i) ∧
    (matchUntilStr str past input = .Partial ↔ ∀ i, ¬ OccursAt str input i) ∧
    ∃ k, LongestFront matcher input k ∧ matchUntil matcher past input =
      if k < input.length then .Complete k (input.take k) else .Partial := by
  refine ⟨?_, ?_, ?_⟩
  · intro i
    constructor
    · intro ⟨value, accepted⟩
      obtain ⟨j, first, same, _⟩ := (matchUntilStr_complete present past input _ _).mp accepted
      rwa [Nat.add_right_cancel same]
    · intro first
      exact ⟨_, matchUntilStr_found present first past⟩
  · rw [matchUntilStr_waits present, infix_iff_occursAt, not_exists]
  · obtain ⟨k, longest⟩ := exists_longestFront matcher input
    exact ⟨k, longest, matchUntil_longest longest past⟩

/-- An input that ends inside the line break. -/
theorem scans_wait_in_crlf :
    (∀ i, (∃ value, matchUntilStr crlf none (charSlice "12\r") =
        .Complete (i + crlf.length) value) ↔ FirstAt crlf (charSlice "12\r") i) ∧
    (matchUntilStr crlf none (charSlice "12\r") = .Partial ↔
      ∀ i, ¬ OccursAt crlf (charSlice "12\r") i) ∧
    ∃ k, LongestFront isDigit (charSlice "12\r") k ∧
      matchUntil isDigit none (charSlice "12\r") =
        if k < (charSlice "12\r").length then .Complete k ((charSlice "12\r").take k)
        else .Partial :=
  scans_end_first crlf crlf_ne_nil isDigit none (charSlice "12\r")

example : matchUntilStr crlf none (charSlice "12\r") = .Partial ∧
    matchUntil isDigit none (charSlice "12\r") = .Complete 2 (charSlice "12") := by
  constructor <;> rfl

/-! ## How much the matchers take -/

theorem takes_matchStr (str : List UInt8) : TakesAtLeast str.length (matchStr str) := by
  intro past input offset value accepted
  rw [(matchStr_complete str past input offset value accepted).1]

theorem getLast?_of_suffix {str line : List UInt8} {last : UInt8}
    (ends : str.getLast? = some last) (suffix : str <:+ line) : line.getLast? = some last := by
  obtain ⟨front, rfl⟩ := suffix
  rw [List.getLast?_append, ends]
  rfl

theorem ends_matchStr {str : List UInt8} {last : UInt8} (ends : str.getLast? = some last) :
    EndsWith last (matchStr str) := by
  intro past input offset value accepted
  obtain ⟨rfl, rfl, starts⟩ := matchStr_complete str past input offset value accepted
  rw [← List.prefix_iff_eq_take.mp starts]
  exact ends

theorem ends_matchUntilStr {str : List UInt8} {last : UInt8} (ends : str.getLast? = some last) :
    EndsWith last (matchUntilStr str) := by
  intro past input offset value accepted
  have present : str ≠ [] := by
    rintro rfl
    contradiction
  obtain ⟨i, first, rfl, _⟩ := (matchUntilStr_complete present past input _ _).mp accepted
  exact getLast?_of_suffix ends first.occurs.suffix

end Compy.Rtsp
