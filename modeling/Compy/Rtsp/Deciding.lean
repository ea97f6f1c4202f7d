import Compy.Rtsp.Types

/-!
# Where the parsers decide

Each parser of a part of a message has seen enough after the bytes it takes and
at most one more.  The one parser that gets stuck on a prefix is that of the
version: behind `RTSP/` it looks at a byte that need not be there.
-/

set_option autoImplicit false

namespace Compy.Rtsp

open IncrementalParsing

theorem still_orFail {α : Type} (error : ParseError) (value : Option α) :
    Still (Parser.orFail error value) := by
  cases value with
  | none => exact Or.inr ⟨error, rfl⟩
  | some value => exact Or.inl ⟨value, rfl⟩

theorem still_pure {α : Type} (value : α) : Still (pure value : Parser α) :=
  Or.inl ⟨value, rfl⟩

/-- What the parser of the version goes over before it looks for a digit. -/
def RtspVersion.slash : Parser (List UInt8) := do
  let _ ← matchWhitespaces
  matchStr rtspSlash

def RequestLine.slash : Parser (List UInt8) := do
  let _ ← Method.parse
  let _ ← RequestUri.parse
  RtspVersion.slash

def NoDigit (past : Option UInt8) : Prop := ∀ c, past = some c → isDigit c = false

theorem ends_crlf : EndsWith '\n'.toUInt8 (matchStr crlf) := ends_matchStr rfl

theorem ends_matchUntilCrlf : EndsWith '\n'.toUInt8 matchUntilCrlf := ends_matchUntilStr rfl

/-- A parser that decides with the line feed it takes last. -/
structure Closes {α : Type} (Among : List UInt8 → Prop) (Stuck : Option UInt8 → List UInt8 → Prop)
    (parser : Parser α) : Prop where
  decides : Decides Among Stuck 0 parser
  ends : EndsWith '\n'.toUInt8 parser

section

variable {Among : List UInt8 → Prop}
  (dropped : ∀ input count, Among input → Among (input.drop count))

theorem closes_line {α : Type} {line : Parser (List UInt8)} {made : List UInt8 → Parser α}
    (decides : Decides Among Never 0 line) (ends : EndsWith '\n'.toUInt8 line)
    (still : ∀ value, Still (made value)) : Closes Among Never (line >>= made) :=
  ⟨decides.bind_still still, ends.bind_still still⟩

theorem closes_crlf {α : Type} (value : α) :
    Closes Among Never (matchStr crlf >>= fun _ => pure value) :=
  closes_line (decides_matchStr crlf) ends_crlf fun _ => still_pure value

theorem closes_untilCrlf {α : Type} (made : List UInt8 → α) :
    Closes Among Never (matchUntilCrlf >>= fun line => pure (made line)) :=
  closes_line (decides_matchUntilStr crlf_ne_nil) ends_matchUntilCrlf fun _ => still_pure _

include dropped

theorem Closes.after {α γ : Type} {first : Parser α} {second : α → Parser γ}
    {Stuck : Option UInt8 → List UInt8 → Prop} (decides : Decides Among Stuck 1 first)
    (closes : ∀ value, Closes Among Never (second value)) :
    Closes Among Stuck (first >>= second) := by
  refine ⟨(Decides.bind dropped decides (fun value => (closes value).decides) ?_).congr ?_,
    EndsWith.bind first fun value => (closes value).ends⟩
  · intro value past input offset _ accepted
    exact (closes value).ends.takes past input offset _ accepted
  · intro past input
    exact (bindStuck_first first past input).symm

theorem Closes.skip {α : Type} (skip : UInt8 → Bool) {second : List UInt8 → Parser α}
    {Stuck : Option UInt8 → List UInt8 → Prop} (empty : ∀ past input, Stuck past input → input = [])
    (closes : ∀ value, Closes Among Stuck (second value)) :
    Closes Among Never (matchUntil skip >>= second) := by
  refine ⟨Decides.bind_looked dropped (decides_matchUntil skip) Nat.one_pos
    (fun value => (closes value).decides) empty ?_,
    EndsWith.bind (matchUntil skip) fun value => (closes value).ends⟩
  intro value past input offset _ accepted
  exact (closes value).ends.takes past input offset _ accepted

theorem decides_some (kind : ParseType) (matcher skip : UInt8 → Bool) :
    Decides Among Never 1 (matchUntil skip >>= fun _ => matchSome kind matcher) :=
  Decides.bind_looked dropped (decides_matchUntil skip) Nat.one_pos
    (fun _ => decides_matchSome kind matcher) (fun _ _ stuck => stuck.1)
    (fun _ _ _ _ _ _ => Nat.le_add_left 1 _)

theorem decides_method : Decides Among Never 1 Method.parse :=
  decides_some dropped .Ident identMatcher whitespaceMatcher

theorem decides_requestUri : Decides Among Never 1 RequestUri.parse :=
  Decides.bind_never dropped (decides_matchUntil whitespaceMatcher)
    (fun _ => decides_matchUntil nonWhitespaceMatcher) (fun _ _ _ _ _ _ => Nat.le_add_left 1 _)

theorem decides_rtspVersion :
    Decides Among (fun past input => Consumes RtspVersion.slash past input ∧ NoDigit past) 1
      RtspVersion.parse := by
  refine (Decides.bind dropped (decides_matchUntil whitespaceMatcher) (fun _ =>
    Decides.bind dropped (decides_matchStr rtspSlash) (fun _ =>
    Decides.bind dropped (decides_matchSome .Int isDigit) (fun major =>
      Decides.bind_looked dropped (decides_matchUntil (fun other => other == '.'.toUInt8))
        Nat.one_pos (fun _ => Decides.bind_still (decides_matchSome .Int isDigit) fun minor => ?_)
        (fun _ _ stuck => stuck.1) ?_) ?_) ?_) ?_).congr ?_
  · exact (still_orFail _ _).bind fun _ => (still_orFail _ _).bind fun _ => still_pure _
  · exact fun _ _ _ _ _ _ => Nat.le_add_left 1 _
  · exact fun _ _ _ _ _ _ => Nat.le_add_left 1 _
  · exact fun _ _ _ _ _ _ => Nat.zero_le _
  · exact fun _ _ _ _ _ _ => Nat.le_add_left 1 _
  · intro past input
    rw [RtspVersion.slash, matchWhitespaces, ← bindStuck_consumes _ _ _ _ _
      ((@decides_matchUntil Among whitespaceMatcher).within past input)]
    refine bindStuck_congr _ past input fun _ rest => ?_
    rw [← bindStuck_last _ _ _ _ ((@decides_matchStr Among rtspSlash).within past rest)]
    refine bindStuck_congr _ past rest fun _ tail => ?_
    rw [bindStuck_first]
    exact Iff.rfl

theorem decides_statusCode : Decides Among Never 1 StatusCode.parse := by
  refine Decides.bind_looked dropped (decides_matchUntil whitespaceMatcher) Nat.one_pos
    (fun _ => Decides.bind_still (decides_matchSome .Int isDigit) fun _ => still_orFail _ _)
    (fun _ _ stuck => stuck.1) ?_
  exact fun _ _ _ _ _ _ => Nat.le_add_left 1 _

theorem closes_reasonPhrase : Closes Among Never ReasonPhrase.parse :=
  Closes.skip dropped whitespaceMatcher (fun _ _ => False.elim) fun _ =>
    closes_untilCrlf withoutCrlf

theorem closes_requestLine :
    Closes Among (fun past input => Consumes RequestLine.slash past input ∧ NoDigit past)
      RequestLine.parse := by
  have version (method uri : List UInt8) := Closes.after dropped (decides_rtspVersion dropped)
    fun version => closes_crlf (RequestLine.mk method uri version)
  have takes (method uri : List UInt8) := (version method uri).ends.takes
  refine ⟨(Decides.bind dropped (decides_method dropped) (fun method =>
    Decides.bind dropped (decides_requestUri dropped) (fun uri => (version method uri).decides)
      ?_) ?_).congr ?_,
    EndsWith.bind _ fun method => EndsWith.bind _ fun uri => (version method uri).ends⟩
  · exact fun uri past input offset _ accepted => takes _ uri past input offset _ accepted
  · exact fun method past input offset _ accepted =>
      (TakesAtLeast.bind_second _ (takes method)) past input offset _ accepted
  · intro past input
    rw [RequestLine.slash,
      ← bindStuck_consumes _ _ _ _ _ ((decides_method dropped).within past input)]
    refine bindStuck_congr _ past input fun _ rest => ?_
    rw [← bindStuck_consumes _ _ _ _ _ ((decides_requestUri dropped).within past rest)]

theorem closes_responseLine :
    Closes Among (fun past input => Consumes RtspVersion.slash past input ∧ NoDigit past)
      ResponseLine.parse := by
  refine Closes.after dropped (decides_rtspVersion dropped) fun version => ?_
  refine Closes.after dropped (decides_statusCode dropped) fun code => ?_
  obtain ⟨decides, ends⟩ := closes_reasonPhrase dropped
  exact closes_line decides ends fun _ => still_pure _

theorem closes_header : Closes Among Never Header.parse := by
  refine Closes.skip dropped whitespaceMatcher
    (fun past input (stuck : NoneBehind headerNameCharMatcher past input) => stuck.1) fun _ => ?_
  refine Closes.after dropped (decides_matchSome .HeaderName headerNameCharMatcher) fun key => ?_
  refine Closes.skip dropped whitespaceMatcher (fun _ _ => False.elim) fun _ => ?_
  refine Closes.skip dropped (fun other => other == ':'.toUInt8) (fun _ _ => False.elim) fun _ => ?_
  refine Closes.skip dropped whitespaceMatcher (fun _ _ => False.elim) fun _ => ?_
  exact closes_untilCrlf fun value => Header.mk key (withoutCrlf value)

end

/-! ## The header map

The loop asks for more whenever the whole input, however long, ends with a
carriage return.  On the other inputs it decides with the empty line, unless it
is cut behind the last header that it has room for.
-/

def NotCr (input : List UInt8) : Prop := input.getLast? ≠ some '\r'.toUInt8

instance (input : List UInt8) : Decidable (NotCr input) :=
  inferInstanceAs (Decidable (input.getLast? ≠ _))

theorem NotCr.drop (input : List UInt8) (count : Nat) (notCr : NotCr input) :
    NotCr (input.drop count) := by
  rw [NotCr, List.getLast?_drop]
  split
  · exact Option.some_ne_none _ |>.symm
  · exact notCr

/-- As many headers as are asked for, and nothing about what follows. -/
def headerLines : Nat → Parser Unit
  | 0 => pure ()
  | count + 1 => do
      let _ ← Header.parse
      headerLines count

theorem header_waits (past : Option UInt8) : Header.parse past [] = .Partial := rfl

theorem header_apart (past : Option UInt8) (input : List UInt8) (offset : Nat) (header : Header)
    (accepted : Header.parse past input = .Complete offset header) : ¬ crlf <+: input := by
  rintro ⟨rest, rfl⟩
  contradiction

theorem headerMap_atEnd_complete (self : HeaderMap) (otherwise : Parser HeaderMap)
    (past : Option UInt8) (input : List UInt8) (offset : Nat) (value : HeaderMap)
    (accepted : self.atEnd otherwise past input = .Complete offset value) :
    NotCr input ∧ (crlf <+: input ∧ offset = crlf.length ∧ value = self ∨
      ¬ crlf <+: input ∧ otherwise past input = .Complete offset value) := by
  rw [HeaderMap.atEnd] at accepted
  split at accepted
  · contradiction
  · rename_i notCr
    refine ⟨notCr, ?_⟩
    split at accepted
    · rename_i found
      cases accepted
      exact Or.inl ⟨found, rfl, rfl⟩
    · rename_i absent
      exact Or.inr ⟨absent, accepted⟩

theorem headerMap_atEnd_otherwise (self : HeaderMap) (otherwise : Parser HeaderMap)
    (past : Option UInt8) (input : List UInt8) (notCr : NotCr input) (absent : ¬ crlf <+: input) :
    self.atEnd otherwise past input = otherwise past input := by
  rw [HeaderMap.atEnd, if_neg notCr, if_neg absent]

theorem headerMap_atEnd_found (self : HeaderMap) (otherwise : Parser HeaderMap)
    (past : Option UInt8) (input : List UInt8) (notCr : NotCr input) (found : crlf <+: input) :
    self.atEnd otherwise past input = .Complete crlf.length self := by
  rw [HeaderMap.atEnd, if_neg notCr, if_pos found]

theorem decides_atEnd (self : HeaderMap) {otherwise : Parser HeaderMap}
    {Stuck : Option UInt8 → List UInt8 → Prop} (decides : Decides NotCr Stuck 0 otherwise)
    (apart : ∀ past input offset value, otherwise past input = .Complete offset value →
      ¬ crlf <+: input)
    (empty : ∀ past, ¬ Stuck past [] → otherwise past [] = .Partial) :
    Decides NotCr (fun past input => ¬ crlf <+: input ∧ Stuck past input) 0
      (self.atEnd otherwise) where
  inside past input offset value accepted := by
    rcases headerMap_atEnd_complete self otherwise past input offset value accepted with
      ⟨_, ⟨found, rfl, _⟩ | ⟨_, later⟩⟩
    · exact found.length_le
    · exact decides.inside past input offset value later
  stable past input offset value accepted past' other starts notCr := by
    rcases headerMap_atEnd_complete self otherwise past input offset value accepted with
      ⟨_, ⟨found, rfl, rfl⟩ | ⟨_, later⟩⟩
    · rw [Nat.add_zero, ← List.prefix_iff_eq_take.mp found] at starts
      exact headerMap_atEnd_found _ otherwise past' other notCr starts
    · have again := decides.stable past input offset value later past' other starts notCr
      rw [headerMap_atEnd_otherwise self otherwise past' other notCr
        (apart past' other offset value again)]
      exact again
  waits past input offset value accepted past' other starts short notCr free := by
    rcases headerMap_atEnd_complete self otherwise past input offset value accepted with
      ⟨_, ⟨found, rfl, _⟩ | ⟨absent, later⟩⟩
    · have within : other <+: crlf :=
        List.prefix_of_prefix_length_le starts found (Nat.le_of_lt short)
      have nothing : other = [] := by
        rcases other with _ | ⟨first, _ | ⟨second, more⟩⟩
        · rfl
        · obtain ⟨_, same⟩ := within
          have first_ : first = '\r'.toUInt8 := (List.cons.inj same).1
          exact absurd (by rw [first_]; rfl) notCr
        · exact absurd short (by simp [crlf, charSlice])
      subst nothing
      have absent : ¬ crlf <+: [] := by decide
      rw [headerMap_atEnd_otherwise self otherwise past' [] notCr absent]
      exact empty past' fun stuck => free ⟨absent, stuck⟩
    · have absent' : ¬ crlf <+: other := fun found => absent (found.trans starts)
      rw [headerMap_atEnd_otherwise self otherwise past' other notCr absent']
      exact decides.waits past input offset value later past' other starts short notCr
        fun stuck => free ⟨absent', stuck⟩
  stops past input notCr stuck := by
    rw [headerMap_atEnd_otherwise self otherwise past input notCr stuck.1]
    exact decides.stops past input notCr stuck.2

theorem consumes_noHeaders (past : Option UInt8) (input : List UInt8) :
    Consumes (headerLines 0) past input ↔ ¬ crlf <+: input ∧ input = [] := by
  constructor
  · intro ⟨_, accepted⟩
    cases input with
    | nil => exact ⟨by decide, rfl⟩
    | cons c rest => cases accepted
  · rintro ⟨_, rfl⟩
    exact ⟨(), rfl⟩

theorem consumes_headerLines (count : Nat) (past : Option UInt8) (input : List UInt8) :
    Consumes (headerLines (count + 1)) past input ↔ ¬ crlf <+: input ∧
      BindStuck Header.parse Never (fun _ => Consumes (headerLines count)) past input := by
  have within := (@closes_header (fun _ => True) fun _ _ _ => trivial).decides.within past input
  rw [headerLines, consumes_bind _ _ past input within]
  constructor
  · intro ⟨offset, header, accepted, later⟩
    exact ⟨header_apart past input offset header accepted, Or.inr ⟨offset, header, accepted, later⟩⟩
  · intro ⟨_, stuck⟩
    rcases stuck with never | found
    · exact never.elim
    · exact found

theorem decides_headerMapLoop (left : Nat) (self : HeaderMap)
    (sum : self.headers.length + left = headerMapCapacity) :
    Decides NotCr (Consumes (headerLines left)) 0 (HeaderMap.parseLoop left self sum) := by
  induction left generalizing self with
  | zero =>
      have full : Decides NotCr (fun _ input => input = []) 0
          (Parser.fail .HeaderMapOverflow : Parser HeaderMap) := decides_fail _
      refine (decides_atEnd self full ?_ ?_).congr consumes_noHeaders
      · intro past input offset value accepted
        cases accepted
      · intro past some_
        exact absurd rfl some_
  | succ left ih =>
      have again := Decides.bind NotCr.drop (closes_header NotCr.drop).decides
        (fun header => ih (self.append header (by omega)) (by
          rw [HeaderMap.append, List.length_append, List.length_singleton]
          omega)) (fun _ _ _ _ _ _ => Nat.zero_le _)
      refine (decides_atEnd self again ?_ ?_).congr (consumes_headerLines left)
      · intro past input offset value accepted
        obtain ⟨taken, header, _, first, _, _⟩ :=
          (bind_eq_complete _ _ past input offset value).mp accepted
        exact header_apart past input taken header first
      · intro past _
        exact bind_partial _ _ past [] (header_waits past)

theorem decides_headerMap :
    Decides NotCr (Consumes (headerLines headerMapCapacity)) 0 HeaderMap.parse :=
  decides_headerMapLoop headerMapCapacity HeaderMap.empty (Nat.zero_add _)

/-- Only inputs that do not end with a carriage return are accepted. -/
theorem headerMap_notCr (past : Option UInt8) (input : List UInt8) (offset : Nat)
    (value : HeaderMap) (accepted : HeaderMap.parse past input = .Complete offset value) :
    NotCr input :=
  (headerMap_atEnd_complete _ _ past input offset value accepted).1

theorem headerMap_cr_waits (past : Option UInt8) (input : List UInt8)
    (cr : input.getLast? = some '\r'.toUInt8) : HeaderMap.parse past input = .Partial :=
  if_pos cr

theorem headerMap_waits (past : Option UInt8) : HeaderMap.parse past [] = .Partial := rfl

end Compy.Rtsp
