import Mathlib.Data.List.Forall2
import Compy.Library.ParserBounds

/-!
# A stream that arrives in reads

A parser with a buffer of limited size in front of it.  After each read the parser sees the data
once: what it accepts is taken off the front, what it waits on stays, and a failure loses the
data, as does the next read when they fill the buffer.
-/

set_option autoImplicit false

namespace StreamParsing

open IncrementalParsing

variable {β ε α : Type}

/-- The elements that a read brings, and the element that lies behind the data then. -/
structure Read (β : Type) where
  chunk : List β
  past : Option β

def chunksOf (reads : List (Read β)) : List β := (reads.map Read.chunk).flatten

/-- The data that an outcome leaves, and the value if there is one. -/
def settle (data : List β) : Outcome ε α → List β × List α
  | .Complete offset value => (data.drop offset, [value])
  | .Partial => (data, [])
  | .Failure _ | .Fault => ([], [])

section

variable (parser : Parser β ε α) (capacity : Nat)

/-- The data that the parser sees behind a read. -/
def seen (data : List β) (read : Read β) : List β :=
  (if capacity ≤ data.length then [] else data) ++ read.chunk

def absorb (data : List β) (read : Read β) : List β × List α :=
  settle (seen capacity data read) (parser read.past (seen capacity data read))

def absorbAll : List (Read β) → List β → List β × List α
  | [], data => (data, [])
  | read :: reads, data =>
      ((absorbAll reads (absorb parser capacity data read).1).1,
        (absorb parser capacity data read).2 ++
          (absorbAll reads (absorb parser capacity data read).1).2)

def faulty : Outcome ε α → Bool
  | .Fault => true
  | _ => false

/-- The values up to the first call at which the parser leaves its input, and whether there is
such a call. -/
def absorbUntil : List (Read β) → List β → List α × Bool
  | [], _ => ([], false)
  | read :: reads, data =>
      if faulty (parser read.past (seen capacity data read)) then ([], true)
      else
        ((absorb parser capacity data read).2 ++
            (absorbUntil reads (absorb parser capacity data read).1).1,
          (absorbUntil reads (absorb parser capacity data read).1).2)

/-- The calls of the parser: what lies behind the data, and the data. -/
def calls : List (Read β) → List β → List (Option β × List β)
  | [], _ => []
  | read :: reads, data =>
      (read.past, seen capacity data read) :: calls reads (absorb parser capacity data read).1

/-- The piece is what the parser takes for the value, with something behind it. -/
def Accepted (piece : List β) (value : α) : Prop :=
  ∃ past behind, parser past (piece ++ behind) = .Complete piece.length value

/-- The values come from pieces of the stream that lie in it in this order, apart from each other
and in front of the data that are left. -/
def Serves (stream : List β) (values : List α) (data : List β) : Prop :=
  ∃ front pieces, stream = front ++ data ∧ InOrder pieces front ∧
    List.Forall₂ (Accepted parser) pieces values

end

variable {parser : Parser β ε α} {capacity : Nat}

theorem absorbAll_append (reads more : List (Read β)) (data : List β) :
    absorbAll parser capacity (reads ++ more) data =
      ((absorbAll parser capacity more (absorbAll parser capacity reads data).1).1,
        (absorbAll parser capacity reads data).2 ++
          (absorbAll parser capacity more (absorbAll parser capacity reads data).1).2) := by
  induction reads generalizing data with
  | nil => rfl
  | cons read reads ih =>
      rw [List.cons_append, absorbAll, ih, absorbAll, List.append_assoc]

theorem calls_append (reads more : List (Read β)) (data : List β) :
    calls parser capacity (reads ++ more) data = calls parser capacity reads data ++
      calls parser capacity more (absorbAll parser capacity reads data).1 := by
  induction reads generalizing data with
  | nil => rfl
  | cons read reads ih => rw [List.cons_append, calls, ih, calls, absorbAll, List.cons_append]

theorem faulty_iff (outcome : Outcome ε α) : faulty outcome = true ↔ outcome = .Fault := by
  cases outcome <;> simp [faulty]

theorem absorbUntil_append (reads more : List (Read β)) (data : List β) :
    absorbUntil parser capacity (reads ++ more) data =
      if (absorbUntil parser capacity reads data).2 then absorbUntil parser capacity reads data
      else
        ((absorbUntil parser capacity reads data).1 ++
            (absorbUntil parser capacity more (absorbAll parser capacity reads data).1).1,
          (absorbUntil parser capacity more (absorbAll parser capacity reads data).1).2) := by
  induction reads generalizing data with
  | nil => rfl
  | cons read reads ih =>
      rw [List.cons_append, absorbUntil, absorbUntil, ih, absorbAll]
      by_cases here : faulty (parser read.past (seen capacity data read)) = true
      · rw [if_pos here, if_pos here, if_pos rfl]
      · rw [if_neg here, if_neg here]
        by_cases later : (absorbUntil parser capacity reads
            (absorb parser capacity data read).1).2 = true
        · rw [if_pos later, if_pos later]
        · rw [if_neg later, if_neg later, List.append_assoc]

theorem absorbUntil_singleton (read : Read β) (data : List β) :
    absorbUntil parser capacity [read] data =
      if faulty (parser read.past (seen capacity data read)) then ([], true)
      else ((absorb parser capacity data read).2, false) := by
  rw [absorbUntil, absorbUntil, List.append_nil]

/-- The parser leaves its input at some call, or all values are there. -/
theorem absorbUntil_cases (reads : List (Read β)) (data : List β) :
    (absorbUntil parser capacity reads data).2 = true ∧
        (∃ call ∈ calls parser capacity reads data, parser call.1 call.2 = .Fault) ∨
      absorbUntil parser capacity reads data = ((absorbAll parser capacity reads data).2, false) ∧
        ∀ call ∈ calls parser capacity reads data, parser call.1 call.2 ≠ .Fault := by
  induction reads generalizing data with
  | nil => exact Or.inr ⟨rfl, fun _ none => absurd none List.not_mem_nil⟩
  | cons read reads ih =>
      rw [absorbUntil, calls, absorbAll]
      by_cases here : faulty (parser read.past (seen capacity data read)) = true
      · rw [if_pos here]
        exact Or.inl ⟨rfl, _, List.mem_cons_self, (faulty_iff _).mp here⟩
      · rw [if_neg here]
        rcases ih (absorb parser capacity data read).1 with
          ⟨faults, call, member, fault⟩ | ⟨same, quiet⟩
        · exact Or.inl ⟨faults, call, List.mem_cons_of_mem _ member, fault⟩
        · rw [same]
          exact Or.inr ⟨rfl, List.forall_mem_cons.mpr ⟨mt (faulty_iff _).mpr here, quiet⟩⟩

theorem chunksOf_cons (read : Read β) (reads : List (Read β)) :
    chunksOf (read :: reads) = read.chunk ++ chunksOf reads := List.flatten_cons

theorem chunksOf_append (front back : List (Read β)) :
    chunksOf (front ++ back) = chunksOf front ++ chunksOf back := by
  rw [chunksOf, List.map_append, List.flatten_append]
  rfl

theorem seen_stays {data : List β} (room : data.length < capacity) (read : Read β) :
    seen capacity data read = data ++ read.chunk := by
  rw [seen, if_neg (Nat.not_le.mpr room)]

theorem absorb_length (data : List β) (read : Read β) :
    (absorb parser capacity data read).1.length ≤ data.length + read.chunk.length := by
  have sees : (seen capacity data read).length ≤ data.length + read.chunk.length := by
    rw [seen, List.length_append]
    split <;> simp
  rw [absorb]
  cases parser read.past (seen capacity data read) with
  | Complete offset value =>
      rw [settle, List.length_drop]
      exact (Nat.sub_le _ _).trans sees
  | Partial => exact sees
  | Failure _ | Fault => exact Nat.zero_le _

/-! ## No element is used twice -/

theorem Serves.lose {stream front data : List β} {values : List α}
    (serves : Serves parser stream values (front ++ data)) : Serves parser stream values data := by
  obtain ⟨before, pieces, rfl, inOrder, accepted⟩ := serves
  refine ⟨before ++ front, pieces, (List.append_assoc _ _ _).symm, ?_, accepted⟩
  have apart := inOrder.append (InOrder.nil front)
  rwa [List.append_nil] at apart

theorem Serves.arrive {stream data : List β} {values : List α}
    (serves : Serves parser stream values data) (chunk : List β) :
    Serves parser (stream ++ chunk) values (data ++ chunk) := by
  obtain ⟨before, pieces, rfl, inOrder, accepted⟩ := serves
  exact ⟨before, pieces, List.append_assoc _ _ _, inOrder, accepted⟩

theorem Serves.front {stream data : List β} {values others : List α}
    (serves : Serves parser stream (values ++ others) data) : Serves parser stream values [] := by
  obtain ⟨before, pieces, rfl, inOrder, accepted⟩ := serves
  refine ⟨before ++ data, pieces.take values.length, (List.append_nil _).symm, ?_,
    List.forall₂_take_append pieces values others accepted⟩
  have apart := (inOrder.append (InOrder.nil data))
  rw [List.append_nil, ← List.take_append_drop values.length pieces] at apart
  exact apart.front

theorem Serves.take {stream data : List β} {values : List α}
    (serves : Serves parser stream values data) {past : Option β} {offset : Nat} {value : α}
    (accepted : parser past data = .Complete offset value) (inside : offset ≤ data.length) :
    Serves parser stream (values ++ [value]) (data.drop offset) := by
  obtain ⟨before, pieces, rfl, inOrder, all⟩ := serves
  have length : (data.take offset).length = offset := List.length_take_of_le inside
  refine ⟨before ++ data.take offset, pieces ++ [data.take offset], ?_, ?_, ?_⟩
  · rw [List.append_assoc, List.take_append_drop]
  · have apart := inOrder.append (InOrder.single (data.take offset) [])
    rwa [List.append_nil] at apart
  · refine List.rel_append all (.cons ⟨past, data.drop offset, ?_⟩ .nil)
    rw [List.take_append_drop, length]
    exact accepted

variable (within : ∀ past input offset value, parser past input = .Complete offset value →
  offset ≤ input.length)

include within

theorem absorb_serves (capacity : Nat) {stream data : List β} {values : List α}
    (serves : Serves parser stream values data) (read : Read β) :
    Serves parser (stream ++ read.chunk) (values ++ (absorb parser capacity data read).2)
      (absorb parser capacity data read).1 := by
  have arrived : Serves parser (stream ++ read.chunk) values (seen capacity data read) := by
    rw [seen]
    split
    · have lost : Serves parser stream values (data ++ []) := by rwa [List.append_nil]
      exact lost.lose.arrive read.chunk
    · exact serves.arrive read.chunk
  rw [absorb]
  cases outcome : parser read.past (seen capacity data read) with
  | Complete offset value => exact arrived.take outcome (within _ _ _ _ outcome)
  | Partial =>
      rw [settle, List.append_nil]
      exact arrived
  | Failure _ | Fault =>
      rw [← List.append_nil (seen capacity data read)] at arrived
      rw [settle, List.append_nil]
      exact arrived.lose

theorem absorbAll_serves (capacity : Nat) (reads : List (Read β)) {stream data : List β} {values : List α}
    (serves : Serves parser stream values data) :
    Serves parser (stream ++ chunksOf reads) (values ++ (absorbAll parser capacity reads data).2)
      (absorbAll parser capacity reads data).1 := by
  induction reads generalizing stream data values with
  | nil =>
      rw [absorbAll, chunksOf, List.map_nil, List.flatten_nil, List.append_nil, List.append_nil]
      exact serves
  | cons read reads ih =>
      have later := ih (absorb_serves within capacity serves read)
      rw [List.append_assoc, List.append_assoc] at later
      exact later

theorem absorbUntil_serves (capacity : Nat) (reads : List (Read β)) {stream data : List β}
    {values : List α} (serves : Serves parser stream values data) :
    Serves parser (stream ++ chunksOf reads)
      (values ++ (absorbUntil parser capacity reads data).1) [] := by
  induction reads generalizing stream data values with
  | nil =>
      rw [absorbUntil, List.append_nil, chunksOf, List.map_nil, List.flatten_nil, List.append_nil]
      rw [← List.append_nil data] at serves
      exact serves.lose
  | cons read reads ih =>
      rw [chunksOf_cons, absorbUntil]
      split
      · have arrived := serves.arrive (read.chunk ++ chunksOf reads)
        rw [← List.append_nil (data ++ _)] at arrived
        rw [List.append_nil]
        exact arrived.lose
      · have later := ih (absorb_serves within capacity serves read)
        rw [List.append_assoc, List.append_assoc] at later
        exact later

omit within

/-! ## Nothing is lost -/

/-- How the parser sees a message, whole or not, where the call is not `Bad`. -/
structure Framed (parser : Parser β ε α) (capacity : Nat) (Bad : Option β → List β → Prop)
    (bytes : List β) (value : α) : Prop where
  present : bytes ≠ []
  fits : bytes.length ≤ capacity
  waits : ∀ past other, other <+: bytes → other.length < bytes.length → ¬ Bad past other →
    parser past other = .Partial
  found : ∀ past after, ¬ Bad past (bytes ++ after) →
    parser past (bytes ++ after) = .Complete bytes.length value ∨
      (parser past (bytes ++ after) = .Partial ∧ (bytes ++ after).length < capacity)

def bytesOf (messages : List (List β × α)) : List β := (messages.map Prod.fst).flatten

theorem bytesOf_cons (message : List β × α) (messages : List (List β × α)) :
    bytesOf (message :: messages) = message.1 ++ bytesOf messages := List.flatten_cons

/-- One read of a stream of messages: the first of them is taken off, or all is kept. -/
theorem absorb_framed {Bad : Option β → List β → Prop} {message : List β × α} {rest data : List β}
    (framed : Framed parser capacity Bad message.1 message.2) (room : data.length < capacity)
    (read : Read β) (starts : data ++ read.chunk <+: message.1 ++ rest)
    (good : ¬ Bad read.past (seen capacity data read)) :
    (∃ after, data ++ read.chunk = message.1 ++ after ∧
      absorb parser capacity data read = (after, [message.2])) ∨
    (absorb parser capacity data read = (data ++ read.chunk, []) ∧
      (data ++ read.chunk).length < capacity) := by
  rw [absorb]
  rw [seen_stays room] at good ⊢
  by_cases short : (data ++ read.chunk).length < message.1.length
  · have prefix_ := List.prefix_of_prefix_length_le starts (List.prefix_append _ _)
      (Nat.le_of_lt short)
    rw [framed.waits _ _ prefix_ short good]
    exact Or.inr ⟨rfl, Nat.lt_of_lt_of_le short framed.fits⟩
  · obtain ⟨after, whole⟩ := List.prefix_of_prefix_length_le (List.prefix_append message.1 rest)
      starts (Nat.le_of_not_lt short)
    rw [← whole] at good ⊢
    rcases framed.found _ _ good with accepted | ⟨waiting, left⟩
    · rw [accepted, settle, List.drop_left]
      exact Or.inl ⟨after, rfl, rfl⟩
    · rw [waiting]
      exact Or.inr ⟨rfl, left⟩

theorem absorbAll_framed {Bad : Option β → List β → Prop} (messages : List (List β × α))
    (framed : ∀ message ∈ messages, Framed parser capacity Bad message.1 message.2)
    (reads : List (Read β)) (nonempty : ∀ read ∈ reads, read.chunk ≠ []) (data : List β)
    (room : data.length < capacity) (starts : data ++ chunksOf reads <+: bytesOf messages)
    (fits : ∀ call ∈ calls parser capacity reads data, call.2.length ≤ capacity)
    (good : ∀ call ∈ calls parser capacity reads data, ¬ Bad call.1 call.2) :
    ∃ count, (absorbAll parser capacity reads data).2 = (messages.take count).map Prod.snd ∧
      data ++ chunksOf reads = bytesOf (messages.take count) ++
        (absorbAll parser capacity reads data).1 ∧
      (absorbAll parser capacity reads data).1.length < capacity := by
  induction reads generalizing messages data with
  | nil => exact ⟨0, rfl, List.append_nil _, room⟩
  | cons read reads ih =>
      obtain ⟨here, later⟩ := List.forall_mem_cons.mp nonempty
      obtain ⟨fitsHere, fitsLater⟩ := List.forall_mem_cons.mp fits
      obtain ⟨goodHere, goodLater⟩ := List.forall_mem_cons.mp good
      have arrives : data ++ chunksOf (read :: reads) =
          (data ++ read.chunk) ++ chunksOf reads := by
        rw [chunksOf_cons, List.append_assoc]
      rw [arrives] at starts ⊢
      have front : data ++ read.chunk <+: bytesOf messages :=
        (List.prefix_append _ _).trans starts
      cases messages with
      | nil =>
          have nothing := List.prefix_nil.mp front
          exact absurd (List.append_eq_nil_iff.mp nothing).2 here
      | cons message messages =>
          rw [bytesOf_cons] at starts front
          rcases absorb_framed (framed message List.mem_cons_self) room read front goodHere with
            ⟨after, whole, absorbed⟩ | ⟨absorbed, left⟩
          · rw [absorbAll, absorbed]
            rw [absorbed] at fitsLater goodLater
            rw [whole, List.append_assoc, List.prefix_append_right_inj] at starts
            have present := List.length_pos_of_ne_nil (framed message List.mem_cons_self).present
            have less : after.length < capacity := by
              rw [seen_stays room, whole, List.length_append] at fitsHere
              omega
            obtain ⟨count, values, split_, small⟩ := ih messages
              (fun other member => framed other (List.mem_cons_of_mem _ member)) later after less
              starts fitsLater goodLater
            refine ⟨count + 1, ?_, ?_, small⟩
            · rw [List.take_succ_cons, List.map_cons, values]
              rfl
            · rw [whole, List.append_assoc, split_, List.take_succ_cons, bytesOf_cons,
                List.append_assoc]
          · rw [absorbAll, absorbed]
            rw [absorbed] at fitsLater goodLater
            rw [← bytesOf_cons] at starts
            obtain ⟨count, values, split_, small⟩ := ih (message :: messages) framed later
              (data ++ read.chunk) left starts fitsLater goodLater
            exact ⟨count, values, split_, small⟩

/-! ## One message at a time -/

/-- The reads of one message: the parser waits on all but the last of them. -/
theorem absorbAll_whole {bytes : List β} {value : α} (small : bytes.length ≤ capacity)
    (found : ∀ past, parser past bytes = .Complete bytes.length value) (reads : List (Read β))
    (some_ : reads ≠ []) (nonempty : ∀ read ∈ reads, read.chunk ≠ []) (data : List β)
    (whole : data ++ chunksOf reads = bytes)
    (waits : ∀ front back, reads = front ++ back → front ≠ [] → back ≠ [] →
      ∀ past, parser past (data ++ chunksOf front) = .Partial) :
    absorbAll parser capacity reads data = ([], [value]) ∧
      ∀ call ∈ calls parser capacity reads data, parser call.1 call.2 ≠ .Fault := by
  induction reads generalizing data with
  | nil => exact absurd rfl some_
  | cons read reads ih =>
      obtain ⟨here, later⟩ := List.forall_mem_cons.mp nonempty
      have length := congrArg List.length whole
      have present := List.length_pos_of_ne_nil here
      rw [chunksOf_cons, List.length_append, List.length_append] at length
      have room : data.length < capacity := by omega
      cases reads with
      | nil =>
          rw [chunksOf_cons, chunksOf, List.map_nil, List.flatten_nil, List.append_nil] at whole
          rw [absorbAll, absorb, calls, seen_stays room, whole, found, settle, List.drop_length]
          refine ⟨rfl, List.forall_mem_singleton.mpr ?_⟩
          rw [found]
          intro fault
          contradiction
      | cons next reads =>
          have waiting := waits [read] (next :: reads) rfl (List.cons_ne_nil _ _)
            (List.cons_ne_nil _ _) read.past
          rw [chunksOf_cons, chunksOf, List.map_nil, List.flatten_nil, List.append_nil] at waiting
          have rest := ih (List.cons_ne_nil _ _) later (data ++ read.chunk)
            (by rw [List.append_assoc, ← chunksOf_cons, whole]) (by
              intro front back split_ some_ more past
              have before := waits (read :: front) back (by rw [split_]; rfl)
                (List.cons_ne_nil _ _) more past
              rwa [chunksOf_cons, ← List.append_assoc] at before)
          rw [absorbAll, calls, absorb, seen_stays room, waiting, settle, rest.1]
          refine ⟨rfl, List.forall_mem_cons.mpr ⟨?_, rest.2⟩⟩
          rw [waiting]
          intro fault
          contradiction

end StreamParsing
