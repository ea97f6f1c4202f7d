import Mathlib.Data.List.DropRight
import Compy.Rtsp.HeaderCase

/-!
# Names and values of headers

What a header line says and what `Compy_Header_parse` makes of it.  `compy_match_char` goes
over any number of colons, none included, so that a name may end without one and a value
may lose those that it begins with.
-/

set_option autoImplicit false

namespace Compy.Rtsp

open IncrementalParsing

/-- The text without the spaces around it. -/
def trimBlanks (text : List UInt8) : List UInt8 :=
  (text.dropWhile whitespaceMatcher).rdropWhile whitespaceMatcher

/-- The name in front of the first colon, and the value behind it. -/
def Denotes (line : List UInt8) (header : Header) : Prop := ∃ before after,
  line = before ++ ':'.toUInt8 :: after ∧ ':'.toUInt8 ∉ before ∧
    header.key = trimBlanks before ∧ header.value = after.dropWhile whitespaceMatcher

/-- There is no colon, or something else than a name in front of it. -/
def Malformed (line : List UInt8) : Prop := ∀ before after,
  line = before ++ ':'.toUInt8 :: after → ':'.toUInt8 ∉ before →
    ∃ c ∈ trimBlanks before, headerNameCharMatcher c = false

/-- A header that is accepted is what its line says; a malformed line is refused. -/
def HeaderSound (past : Option UInt8) (input : List UInt8) : Prop :=
  (∀ offset header, Header.parse past input = .Complete offset header →
    ∃ line rest, input = line ++ crlf ++ rest ∧ ¬ crlf <:+: line ∧
      offset = (line ++ crlf).length ∧ Denotes line header) ∧
  ∀ line rest, input = line ++ crlf ++ rest → ¬ crlf <:+: line → Malformed line →
    ∃ error, Header.parse past input = .Failure error

/-- The first byte that is no space cannot stand in a name. -/
def NoName (line : List UInt8) : Prop :=
  ∀ c rest, line.dropWhile whitespaceMatcher = c :: rest → headerNameCharMatcher c = false

/-- A name and one colon, not two. -/
def OneColon (line : List UInt8) : Prop := ∃ lead name gap after,
  line = lead ++ (name ++ (gap ++ ':'.toUInt8 :: after)) ∧ Blank lead ∧
    (name ≠ [] ∧ ∀ c ∈ name, headerNameCharMatcher c = true) ∧ Blank gap ∧
    after.head? ≠ some ':'.toUInt8

/-! ## Spans -/

theorem span_unique {matcher : UInt8 → Bool} {front rest front' rest' : List UInt8}
    (same : front ++ rest = front' ++ rest') (all : ∀ c ∈ front, matcher c = true)
    (stops : StopsAt matcher rest) (all' : ∀ c ∈ front', matcher c = true)
    (stops' : StopsAt matcher rest') : front = front' ∧ rest = rest' := by
  have taken {front rest : List UInt8} (all : ∀ c ∈ front, matcher c = true)
      (stops : StopsAt matcher rest) : (front ++ rest).takeWhile matcher = front := by
    obtain ⟨c, tail, rfl, stop⟩ := stops
    rw [List.takeWhile_append_of_pos all, List.takeWhile_cons_of_neg (by simp [stop]),
      List.append_nil]
  have fronts : front = front' := by rw [← taken all stops, same, taken all' stops']
  rw [fronts] at same
  exact ⟨fronts, List.append_cancel_left same⟩

theorem line_unique {line line' rest rest' : List UInt8} (clean : ¬ crlf <:+: line)
    (clean' : ¬ crlf <:+: line') (same : line ++ crlf ++ rest = line' ++ crlf ++ rest') :
    line = line' := by
  have first := crlf_firstAt clean rest
  rw [same] at first
  have lengths := first.unique (crlf_firstAt clean' rest')
  rw [List.append_assoc, List.append_assoc] at same
  exact (List.append_inj same lengths).1

theorem trimBlanks_word {lead name gap : List UInt8} (blank : Blank lead)
    (word : name ≠ [] ∧ ∀ c ∈ name, headerNameCharMatcher c = true) (blank' : Blank gap) :
    trimBlanks (lead ++ (name ++ gap)) = name := by
  obtain ⟨first, more, whole⟩ := List.exists_cons_of_ne_nil word.1
  have start : (name ++ gap).dropWhile whitespaceMatcher = name ++ gap := by
    rw [whole, List.cons_append, List.dropWhile_cons_of_neg]
    simp [headerNameChar_not_space first (word.2 first (by simp [whole]))]
  obtain ⟨front, last, ends⟩ := List.eq_nil_or_concat name |>.resolve_left word.1
  rw [trimBlanks, List.dropWhile_append_of_pos blank, start, List.rdropWhile, List.reverse_append,
    List.dropWhile_append_of_pos fun c member => blank' c (List.mem_reverse.mp member)]
  rw [ends, List.concat_eq_append, List.reverse_concat, List.dropWhile_cons_of_neg]
  · simp
  · simp [headerNameChar_not_space last (word.2 last (by simp [ends]))]

theorem trimBlanks_split (text : List UInt8) : ∃ lead gap,
    text = lead ++ (trimBlanks text ++ gap) ∧ Blank lead ∧ Blank gap := by
  refine ⟨text.takeWhile whitespaceMatcher,
    (text.dropWhile whitespaceMatcher).rtakeWhile whitespaceMatcher, ?_, all_takeWhile _ text, ?_⟩
  · rw [trimBlanks, List.rdropWhile_append_rtakeWhile, List.takeWhile_append_dropWhile]
  · intro c member
    exact List.mem_rtakeWhile_imp member

theorem colon_not_blank : whitespaceMatcher ':'.toUInt8 = false := rfl

theorem colon_not_name : headerNameCharMatcher ':'.toUInt8 = false := rfl

/-! ## Lines that are read -/

namespace NameLine

def line (self : NameLine) : List UInt8 := self.lead ++ (self.key ++ self.tail)

theorem bytes_line (self : NameLine) : self.bytes = self.line ++ crlf := by
  simp only [bytes, line, List.append_assoc]

theorem line_clean (self : NameLine) : ¬ crlf <:+: self.line :=
  clean_append (fun c member => matched_ne (self.blank c member) rfl)
    (clean_append (fun c member => matched_ne (self.name.2 c member) rfl) self.clean)

theorem split_colon (self : NameLine) {lead name gap after : List UInt8}
    (same : self.line = lead ++ (name ++ (gap ++ ':'.toUInt8 :: after))) (blank : Blank lead)
    (word : name ≠ [] ∧ ∀ c ∈ name, headerNameCharMatcher c = true) (blank' : Blank gap) :
    self.key = name ∧ self.tail = gap ++ ':'.toUInt8 :: after := by
  rw [line] at same
  obtain ⟨_, words⟩ := span_unique same self.blank
    (stopsAt_append _ (word_stops self.name headerNameChar_not_space)) blank
    (stopsAt_append _ (word_stops word headerNameChar_not_space))
  have behind : StopsAt headerNameCharMatcher (gap ++ ':'.toUInt8 :: after ++ crlf) := by
    cases gap with
    | nil => exact ⟨_, _, rfl, colon_not_name⟩
    | cons c gap =>
        refine ⟨c, _, rfl, ?_⟩
        rw [eq_of_beq (blank' c List.mem_cons_self)]
        rfl
  have lines : self.key ++ (self.tail ++ crlf) = name ++ (gap ++ ':'.toUInt8 :: after ++ crlf) := by
    rw [← List.append_assoc, words, List.append_assoc]
  obtain ⟨keys, tails⟩ := span_unique lines self.name.2 self.stops word.2 behind
  exact ⟨keys, List.append_cancel_right tails⟩

theorem value_colon (self : NameLine) {gap after : List UInt8} (blank : Blank gap)
    (same : self.tail = gap ++ ':'.toUInt8 :: after) :
    self.value = (after.dropWhile (fun other => other == ':'.toUInt8)).dropWhile
      whitespaceMatcher := by
  rw [value, same, List.dropWhile_append_of_pos blank,
    List.dropWhile_cons_of_neg (by simp [colon_not_blank]), List.dropWhile_cons_of_pos (by simp)]

end NameLine

theorem nameLine_of_name {line : List UInt8} (clean : ¬ crlf <:+: line) (named : ¬ NoName line) :
    ∃ nameLine : NameLine, nameLine.line = line := by
  rw [NoName] at named
  push Not at named
  obtain ⟨c, rest, begins, name⟩ := named
  obtain ⟨key, tail, same, all, stops⟩ := span_line headerNameCharMatcher rfl (c :: rest)
  have present : key ≠ [] := by
    intro empty
    rw [empty, List.nil_append] at same
    rw [← same] at stops
    obtain ⟨_, _, first, other⟩ := stops
    cases first
    exact name other
  have whole : line = line.takeWhile whitespaceMatcher ++ (key ++ tail) := by
    rw [← same, ← begins, List.takeWhile_append_dropWhile]
  rw [whole] at clean
  exact ⟨⟨line.takeWhile whitespaceMatcher, key, tail, all_takeWhile _ line, ⟨present, all⟩, stops,
    clean_of_append (clean_of_append clean)⟩, whole.symm⟩

theorem noName_fails (past : Option UInt8) {line : List UInt8} (rest : List UInt8)
    (unnamed : NoName line) :
    ∃ error, Header.parse past (line ++ crlf ++ rest) = .Failure error := by
  have parts : line ++ crlf ++ rest = line.takeWhile whitespaceMatcher ++
      (line.dropWhile whitespaceMatcher ++ crlf ++ rest) := by
    simp only [← List.append_assoc, List.takeWhile_append_dropWhile]
  have stops := stopsAt_append rest (stops_dropWhile (rfl : whitespaceMatcher _ = false) line)
  have skipped := reads_matchUntil whitespaceMatcher _ (all_takeWhile _ line) past _ stops
  have first : ∃ c tail, line.dropWhile whitespaceMatcher ++ crlf ++ rest = c :: tail ∧
      headerNameCharMatcher c = false := by
    cases back : line.dropWhile whitespaceMatcher with
    | nil => exact ⟨_, _, rfl, rfl⟩
    | cons c tail => exact ⟨c, _, rfl, unnamed c tail back⟩
  obtain ⟨c, tail, begins, other⟩ := first
  rw [begins] at parts skipped
  have refused : matchHeaderName past (c :: tail) =
      .Failure (.TypeMismatch .HeaderName (c :: tail)) := by
    simp [matchHeaderName, matchSome, other]
  refine ⟨.TypeMismatch .HeaderName (c :: tail), ?_⟩
  rw [parts, Header.parse, matchWhitespaces, bind_complete _ _ past _ _ _ skipped, List.drop_left,
    bind_apply, refused]
  rfl

theorem no_colon_before {lead name gap : List UInt8} (blank : Blank lead)
    (word : ∀ c ∈ name, headerNameCharMatcher c = true) (blank' : Blank gap) :
    ':'.toUInt8 ∉ lead ++ (name ++ gap) := by
  intro member
  rcases List.mem_append.mp member with inLead | later
  · exact matched_ne (blank _ inLead) colon_not_blank rfl
  · rcases List.mem_append.mp later with inName | inGap
    · exact matched_ne (word _ inName) colon_not_name rfl
    · exact matched_ne (blank' _ inGap) colon_not_blank rfl

theorem OneColon.not_malformed {line : List UInt8} (colon : OneColon line) : ¬ Malformed line := by
  obtain ⟨lead, name, gap, after, rfl, blank, word, blank', _⟩ := colon
  intro malformed
  obtain ⟨c, member, other⟩ := malformed (lead ++ (name ++ gap)) after
    (by simp only [List.append_assoc]) (no_colon_before blank word.2 blank')
  rw [trimBlanks_word blank word blank'] at member
  exact matched_ne (word.2 c member) other rfl

theorem NameLine.denotes_iff (self : NameLine) :
    Denotes self.line self.header ↔ OneColon self.line := by
  constructor
  · intro ⟨before, after, same, _, key, value⟩
    obtain ⟨lead, gap, split_, blank, blank'⟩ := trimBlanks_split before
    rw [← key] at split_
    have whole : self.line = lead ++ (self.key ++ (gap ++ ':'.toUInt8 :: after)) := by
      rw [same, split_]
      simp only [List.append_assoc]
      rfl
    refine ⟨lead, self.key, gap, after, whole, blank, self.name, blank', ?_⟩
    intro again
    obtain ⟨more, rfl⟩ := List.head?_eq_some_iff.mp again
    have tail := (self.split_colon whole blank self.name blank').2
    have lost := self.value_colon blank' tail
    rw [show self.value = _ from value, List.dropWhile_cons_of_neg (by simp [colon_not_blank]),
      List.dropWhile_cons_of_pos (by simp)] at lost
    have size := congrArg List.length lost
    have shorter := List.length_dropWhile_le whitespaceMatcher
      (more.dropWhile fun other => other == ':'.toUInt8)
    have shorter' := List.length_dropWhile_le (fun other => other == ':'.toUInt8) more
    rw [List.length_cons] at size
    omega
  · intro ⟨lead, name, gap, after, same, blank, word, blank', once⟩
    obtain ⟨key, tail⟩ := self.split_colon same blank word blank'
    have value := self.value_colon blank' tail
    have kept : after.dropWhile (fun other => other == ':'.toUInt8) = after := by
      cases after with
      | nil => rfl
      | cons c after => simpa using once
    rw [kept] at value
    refine ⟨lead ++ (name ++ gap), after, ?_, no_colon_before blank word.2 blank', ?_, value⟩
    · rw [same]
      simp only [List.append_assoc]
    · rw [trimBlanks_word blank word blank']
      exact key

theorem headerSound_iff (past : Option UInt8) (input : List UInt8) :
    HeaderSound past input ↔ ∀ line rest, input = line ++ crlf ++ rest → ¬ crlf <:+: line →
      NoName line ∨ OneColon line := by
  constructor
  · intro sound line rest same clean
    by_contra neither
    rw [not_or] at neither
    obtain ⟨nameLine, rfl⟩ := nameLine_of_name clean neither.1
    have accepted := nameLine.reads past rest trivial
    rw [nameLine.bytes_line, ← same] at accepted
    obtain ⟨line, rest', same', clean', _, denotes⟩ := sound.1 _ _ accepted
    have lines := line_unique clean clean' (same.symm.trans same')
    rw [← lines] at denotes
    exact neither.2 (nameLine.denotes_iff.mp denotes)
  · intro lines
    constructor
    · intro offset header accepted
      obtain ⟨nameLine, rest, same, size, rfl⟩ := header_lines past input offset header accepted
      rw [nameLine.bytes_line] at same size
      refine ⟨nameLine.line, rest, same, nameLine.line_clean, size, ?_⟩
      rcases lines _ rest same nameLine.line_clean with unnamed | colon
      · obtain ⟨error, failed⟩ := noName_fails past rest unnamed
        rw [← same, accepted] at failed
        contradiction
      · exact nameLine.denotes_iff.mpr colon
    · intro line rest same clean malformed
      rcases lines line rest same clean with unnamed | colon
      · rw [same]
        exact noName_fails past rest unnamed
      · exact absurd malformed colon.not_malformed

/-- The digit ends the name, and the colon is read as a part of the value. -/
theorem digit_in_name :
    Header.parse none (charSlice "Foo1: bar\r\n") =
        .Complete 11 { key := charSlice "Foo", value := charSlice "1: bar" } ∧
      ¬ HeaderSound none (charSlice "Foo1: bar\r\n") := by
  have accepted : Header.parse none (charSlice "Foo1: bar\r\n") =
      .Complete 11 { key := charSlice "Foo", value := charSlice "1: bar" } := rfl
  have malformed : Malformed (charSlice "Foo1: bar") := by
    intro before after same absent
    have front : (before ++ ':'.toUInt8 :: after).takeWhile (· != ':'.toUInt8) = before := by
      rw [List.takeWhile_append_of_pos, List.takeWhile_cons_of_neg (by simp), List.append_nil]
      intro c member
      exact bne_iff_ne.mpr (ne_of_mem_of_not_mem member absent)
    have name : before = charSlice "Foo1" := by rw [← front, ← same]; decide
    exact ⟨'1'.toUInt8, by rw [name]; decide, rfl⟩
  refine ⟨accepted, ?_⟩
  intro sound
  obtain ⟨error, failed⟩ := sound.2 (charSlice "Foo1: bar") [] rfl (by decide) malformed
  rw [accepted] at failed
  contradiction

end Compy.Rtsp
