import Compy.Connection.Dispatch
import Compy.Library.StreamParsing
import Compy.Rtsp.Bounds

/-!
# The read callback

`compy_libevent_cb` between the bytes that libevent has read and `compy_dispatch`.  The bytes
that the parser waits on stay in a buffer of 4096 bytes; a failure, and a full buffer, throw them
away.
-/

set_option autoImplicit false

namespace Compy.Connection

open CheckedBytes Framing StreamParsing IncrementalParsing Compy.Rtsp

def parseBufSize : Nat := 4096

structure LibeventCtx where
  buf : List UInt8
  bufLen : Nat

namespace LibeventCtx

/-- `compy_libevent_ctx`; `calloc` clears the buffer. -/
def new : LibeventCtx := ⟨List.replicate parseBufSize 0, 0⟩

def data (self : LibeventCtx) : List UInt8 := self.buf.take self.bufLen

def past (self : LibeventCtx) : Option UInt8 := self.buf[self.bufLen]?

/-- A full buffer is discarded. -/
def reset (self : LibeventCtx) : LibeventCtx :=
  if parseBufSize - self.bufLen = 0 then { self with bufLen := 0 } else self

def space (self : LibeventCtx) : Nat := parseBufSize - self.reset.bufLen

theorem space_pos (self : LibeventCtx) : 0 < self.space := by
  rw [space, reset]
  split
  · exact Nat.two_pow_pos 12
  · omega

/-- `evbuffer_remove` into the buffer. -/
def remove (self : LibeventCtx) (bytes : List UInt8) : Access LibeventCtx := do
  let buf ← writeBytes self.buf self.bufLen bytes
  return ⟨buf, self.bufLen + bytes.length⟩

/-- The remaining data are shifted to the front. -/
def shift (self : LibeventCtx) (consumed : Nat) : Access LibeventCtx :=
  if 0 < consumed ∧ consumed < self.bufLen then do
    let remaining ← readBytes self.buf consumed (self.bufLen - consumed)
    let buf ← writeBytes self.buf 0 remaining
    return ⟨buf, self.bufLen - consumed⟩
  else return { self with bufLen := 0 }

variable {τ : Type}

/-- One turn of the loop, with the bytes that it takes from the input. -/
def turn (dispatch : Request → τ → Access τ) (self : LibeventCtx) (bytes : List UInt8)
    (state : τ) : Access (LibeventCtx × τ) := do
  let self ← self.reset.remove bytes
  match Request.parse self.past self.data with
  | .Complete consumed req =>
      let state ← dispatch req state
      let self ← self.shift consumed
      return (self, state)
  | .Failure _ => return ({ self with bufLen := 0 }, state)
  | .Partial => return (self, state)
  | .Fault => .error .outOfBounds

theorem drop_shrinks (self : LibeventCtx) (first : UInt8) (more : List UInt8) :
    ((first :: more).drop (min (first :: more).length self.space)).length <
      (first :: more).length := by
  have pos := self.space_pos
  rw [List.length_drop, List.length_cons]
  omega

end LibeventCtx

variable {τ : Type}

/-- `compy_libevent_cb` with what libevent has read. -/
def compyLibeventCb (dispatch : Request → τ → Access τ) (self : LibeventCtx) (state : τ) :
    List UInt8 → Access (LibeventCtx × τ)
  | [] => .ok (self, state)
  | first :: more => do
      let toRead := min (first :: more).length self.space
      let (self, state) ← self.turn dispatch ((first :: more).take toRead) state
      compyLibeventCb dispatch self state ((first :: more).drop toRead)
termination_by input => input.length
decreasing_by exact LibeventCtx.drop_shrinks _ _ _

def runCallbacks (dispatch : Request → τ → Access τ) :
    List (List UInt8) → LibeventCtx → τ → Access (LibeventCtx × τ)
  | [], self, state => .ok (self, state)
  | input :: inputs, self, state => do
      let (self, state) ← compyLibeventCb dispatch self state input
      runCallbacks dispatch inputs self state

/-! ## The buffer -/

namespace LibeventCtx

structure Valid (ctx : LibeventCtx) : Prop where
  size : ctx.buf.length = parseBufSize
  fits : ctx.bufLen ≤ parseBufSize

theorem new_valid : new.Valid where
  size := List.length_replicate
  fits := Nat.zero_le _

@[simp] theorem new_data : new.data = [] := rfl

variable {ctx : LibeventCtx} (valid : ctx.Valid)

include valid

theorem Valid.data_length : ctx.data.length = ctx.bufLen := by
  rw [data, List.length_take, valid.size]
  exact Nat.min_eq_left valid.fits

theorem Valid.empty : Valid { ctx with bufLen := 0 } := ⟨valid.size, Nat.zero_le _⟩

theorem Valid.past_none : ctx.past = none ↔ ctx.data.length = parseBufSize := by
  have size := valid.size
  have fits := valid.fits
  rw [past, List.getElem?_eq_none_iff, valid.data_length]
  omega

theorem Valid.reset : ctx.reset.Valid := by
  rw [LibeventCtx.reset]
  split
  · exact valid.empty
  · exact valid

theorem Valid.reset_data (bytes : List UInt8) (past : Option UInt8) :
    ctx.reset.data ++ bytes = seen parseBufSize ctx.data ⟨bytes, past⟩ := by
  have length := valid.data_length
  rw [LibeventCtx.reset, seen]
  split
  · rename_i full
    rw [if_pos (by omega)]
    rfl
  · rename_i room
    rw [if_neg (by omega)]

theorem Valid.remove (bytes : List UInt8) (room : ctx.bufLen + bytes.length ≤ parseBufSize) :
    ∃ next, ctx.remove bytes = .ok next ∧ next.Valid ∧ next.data = ctx.data ++ bytes := by
  have inside : ctx.bufLen + bytes.length ≤ ctx.buf.length := by rwa [valid.size]
  refine ⟨_, by rw [LibeventCtx.remove, writeBytes_ok _ _ _ inside]; rfl, ⟨?_, room⟩, ?_⟩
  · rw [length_written _ _ _ inside]
    exact valid.size
  · have front : (ctx.buf.take ctx.bufLen ++ bytes).length = ctx.bufLen + bytes.length := by
      rw [List.length_append, List.length_take_of_le (by omega)]
    rw [data, List.take_append_of_le_length (Nat.le_of_eq front.symm), ← front, List.take_length]
    rfl

theorem Valid.shift {consumed : Nat} (some_ : 0 < consumed) (inside : consumed ≤ ctx.bufLen) :
    ∃ next, ctx.shift consumed = .ok next ∧ next.Valid ∧ next.data = ctx.data.drop consumed := by
  have size := valid.size
  have fits := valid.fits
  rw [LibeventCtx.shift]
  by_cases more : consumed < ctx.bufLen
  · have from_ : consumed + (ctx.bufLen - consumed) ≤ ctx.buf.length := by omega
    have remaining : ((ctx.buf.drop consumed).take (ctx.bufLen - consumed)).length =
        ctx.bufLen - consumed := by
      rw [List.length_take, List.length_drop]
      omega
    have front : 0 + ((ctx.buf.drop consumed).take (ctx.bufLen - consumed)).length ≤
        ctx.buf.length := by omega
    rw [if_pos ⟨some_, more⟩, readBytes_ok _ _ _ from_, ok_bind, writeBytes_ok _ _ _ front]
    refine ⟨_, rfl, ⟨?_, by show ctx.bufLen - consumed ≤ parseBufSize; omega⟩, ?_⟩
    · rw [length_written _ _ _ front]
      exact size
    · rw [data, List.take_zero, List.nil_append, List.take_left' remaining, data,
        List.drop_take]
  · rw [if_neg (fun both => more both.2)]
    refine ⟨_, rfl, valid.empty, ?_⟩
    have all : ctx.data.length ≤ consumed := by
      rw [valid.data_length]
      omega
    rw [List.drop_eq_nil_of_le all]
    rfl

end LibeventCtx

/-! ## The parser behind the buffer -/

theorem request_takes (past : Option UInt8) (input : List UInt8) (offset : Nat) (req : Request)
    (accepted : Request.parse past input = .Complete offset req) :
    0 < offset ∧ offset ≤ input.length := by
  have long : TakesAtLeast interleavedHeaderSize Request.parse :=
    TakesAtLeast.bind_second _ fun _ => requestLine_starts.long.bind_first _
  have within := (decides_message requestLine_starts).within past input offset req accepted
  exact ⟨Nat.lt_of_lt_of_le (by decide) (long past input offset req accepted), within⟩

theorem backed_orFail {α : Type} (error : ParseError) (value : Option α) :
    Backed (Parser.orFail error value) := (still_orFail error value).oversteps.backed

theorem backed_matchUntil (matcher : UInt8 → Bool) : Backed (matchUntil matcher) :=
  (oversteps_matchUntil matcher).backed

theorem backed_matchSome (kind : ParseType) (matcher : UInt8 → Bool) :
    Backed (matchSome kind matcher) := by
  intro last input
  cases input with
  | nil =>
      rw [matchSome, List.head?_nil, Option.none_or]
      dsimp only
      split
      · simp
      · exact backed_matchUntil matcher last []
  | cons c rest =>
      rw [(oversteps_matchSome kind matcher).blind _ (List.cons_ne_nil c rest)]
      exact mt ((oversteps_matchSome kind matcher).faults_iff _).mp (List.cons_ne_nil c rest)

theorem backed_rtspVersion : Backed RtspVersion.parse :=
  (backed_matchUntil _).bind fun _ => (oversteps_matchStr rtspSlash).backed.bind fun _ =>
    (backed_matchSome .Int isDigit).bind fun _ => (backed_matchUntil _).bind fun _ =>
      (backed_matchSome .Int isDigit).bind fun _ => (backed_orFail _ _).bind fun _ =>
        (backed_orFail _ _).bind fun _ => (still_pure _).oversteps.backed

theorem backed_requestLine : Backed RequestLine.parse :=
  oversteps_method.backed.bind fun _ => oversteps_requestUri.backed.bind fun _ =>
    backed_rtspVersion.bind fun _ => (oversteps_matchStr crlf).backed.bind fun _ =>
      (still_pure _).oversteps.backed

/-- With a byte behind it the parser looks at nothing else. -/
theorem backed_request : Backed Request.parse :=
  oversteps_skipInterleaved.backed.bind fun _ => backed_requestLine.bind fun _ =>
    oversteps_headerMap.backed.bind fun map => (still_contentLength map).oversteps.backed.bind
      fun length => (oversteps_messageBody length).backed.bind fun _ =>
        (still_cseqNumber map).oversteps.backed.bind fun _ => (still_pure _).oversteps.backed

/-- Only the slash of the version at the end of the memory makes the parser leave it. -/
theorem request_fault_iff (past : Option UInt8) (input : List UInt8) :
    Request.parse past input = .Fault ↔ past = none ∧ EndsAtSlash RequestSlash input := by
  cases past with
  | none =>
      rw [and_iff_right rfl]
      exact message_fault_iff requestLine_starts oversteps_requestLine input
  | some last => exact iff_of_false (backed_request last input) fun both => by cases both.1

/-! ## What the callback reads -/

def dispatchAll (dispatch : Request → τ → Access τ) : List Request → τ → Access τ
  | [], state => .ok state
  | req :: reqs, state => do
      let state ← dispatch req state
      dispatchAll dispatch reqs state

theorem dispatchAll_single (dispatch : Request → τ → Access τ) (req : Request) (state : τ) :
    dispatchAll dispatch [req] state = dispatch req state := by
  rw [dispatchAll]
  cases dispatch req state <;> rfl

theorem dispatchAll_append (dispatch : Request → τ → Access τ) (front back : List Request)
    (state : τ) : dispatchAll dispatch (front ++ back) state =
      dispatchAll dispatch front state >>= dispatchAll dispatch back := by
  induction front generalizing state with
  | nil => rfl
  | cons req front ih =>
      rw [List.cons_append, dispatchAll, dispatchAll]
      cases dispatch req state with
      | error fault => rfl
      | ok next => exact ih next

def ignore (_req : Request) (_state : Unit) : Access Unit := .ok ()

namespace LibeventCtx

def readTurn (self : LibeventCtx) (bytes : List UInt8) : Read UInt8 × LibeventCtx :=
  match self.reset.remove bytes, self.turn ignore bytes () with
  | .ok next, .ok (after, _) => (⟨bytes, next.past⟩, after)
  | .ok next, .error _ => (⟨bytes, next.past⟩, { next with bufLen := 0 })
  | .error _, _ => (⟨bytes, none⟩, self)

end LibeventCtx

/-- The requests are dispatched, and then the callback goes on or has left its buffer. -/
def finish (after : LibeventCtx) (served : List Request × Bool)
    (dispatch : Request → τ → Access τ) (state : τ) : Access (LibeventCtx × τ) := do
  let state ← dispatchAll dispatch served.1 state
  if served.2 then .error .outOfBounds else return (after, state)

theorem finish_ok (after : LibeventCtx) (reqs : List Request)
    (dispatch : Request → τ → Access τ) (state : τ) : finish after (reqs, false) dispatch state =
      (dispatchAll dispatch reqs state).map fun state => (after, state) := by
  rw [finish]
  cases dispatchAll dispatch reqs state <;> rfl

/-- A part of the loop, for every way of handling the requests. -/
abbrev Handles := {τ : Type} → (Request → τ → Access τ) → τ → Access (LibeventCtx × τ)

/-- The part of the loop takes the bytes in these reads, and leaves `after`: the requests that are
accepted are dispatched, and nothing fails but their handling and a look behind a full buffer. -/
structure Reads (run : Handles) (ctx : LibeventCtx) (bytes : List UInt8)
    (reads : List (Read UInt8)) (after : LibeventCtx) : Prop where
  valid : after.Valid
  stream : chunksOf reads = bytes
  nonempty : ∀ read ∈ reads, read.chunk ≠ []
  fits : ∀ call ∈ calls Request.parse parseBufSize reads ctx.data, call.2.length ≤ parseBufSize
  ends : ∀ call ∈ calls Request.parse parseBufSize reads ctx.data,
    call.1 = none ↔ call.2.length = parseBufSize
  data : after.data = (absorbAll Request.parse parseBufSize reads ctx.data).1
  runs : ∀ {τ : Type} (dispatch : Request → τ → Access τ) (state : τ), run dispatch state =
    finish after (absorbUntil Request.parse parseBufSize reads ctx.data) dispatch state

theorem Reads.none {ctx : LibeventCtx} (valid : ctx.Valid) :
    Reads (fun _ state => .ok (ctx, state)) ctx [] [] ctx where
  valid := valid
  stream := rfl
  nonempty _ none := absurd none List.not_mem_nil
  fits _ none := absurd none List.not_mem_nil
  ends _ none := absurd none List.not_mem_nil
  data := rfl
  runs _ _ := rfl

theorem Reads.append {first : Handles} (rest : LibeventCtx → Handles) {ctx middle after : LibeventCtx}
    {bytes more : List UInt8} {reads later : List (Read UInt8)}
    (one : Reads first ctx bytes reads middle) (two : Reads (rest middle) middle more later after) :
    Reads (fun dispatch state => do
      let (self, state) ← first dispatch state
      rest self dispatch state) ctx (bytes ++ more) (reads ++ later) after where
  valid := two.valid
  stream := by rw [chunksOf_append, one.stream, two.stream]
  nonempty read member := (List.mem_append.mp member).elim (one.nonempty read) (two.nonempty read)
  fits call member := by
    rw [calls_append, ← one.data] at member
    exact (List.mem_append.mp member).elim (one.fits call) (two.fits call)
  ends call member := by
    rw [calls_append, ← one.data] at member
    exact (List.mem_append.mp member).elim (one.ends call) (two.ends call)
  data := by rw [two.data, absorbAll_append, one.data]
  runs dispatch state := by
    rw [one.runs, absorbUntil_append, ← one.data, finish, finish]
    split
    · cases dispatchAll dispatch (absorbUntil Request.parse parseBufSize reads ctx.data).1 state <;>
        rfl
    · dsimp only
      rw [dispatchAll_append]
      cases dispatchAll dispatch (absorbUntil Request.parse parseBufSize reads ctx.data).1 state with
      | error fault => rfl
      | ok next => exact two.runs dispatch next

theorem Reads.quiet {run : Handles} {ctx after : LibeventCtx} {bytes : List UInt8}
    {reads : List (Read UInt8)} (all : Reads run ctx bytes reads after)
    (quiet : ∀ call ∈ calls Request.parse parseBufSize reads ctx.data,
      Request.parse call.1 call.2 ≠ .Fault) {τ : Type} (dispatch : Request → τ → Access τ)
    (state : τ) : run dispatch state =
      (dispatchAll dispatch (absorbAll Request.parse parseBufSize reads ctx.data).2 state).map
        fun state => (after, state) := by
  rcases absorbUntil_cases reads ctx.data with ⟨_, call, member, fault⟩ | ⟨same, _⟩
  · exact absurd fault (quiet call member)
  · rw [all.runs, same, finish_ok]

namespace LibeventCtx

variable {ctx : LibeventCtx} (valid : ctx.Valid)

include valid

omit valid in
/-- A turn that leaves `after`, behind a read that leaves `next` for the parser. -/
theorem reads_turn {bytes : List UInt8} (some_ : bytes ≠ []) {next after : LibeventCtx}
    (small : next.Valid) (sees : next.data = seen parseBufSize ctx.data ⟨bytes, next.past⟩)
    (valid : after.Valid) (turned : ctx.readTurn bytes = (⟨bytes, next.past⟩, after))
    (data : after.data = (absorb Request.parse parseBufSize ctx.data ⟨bytes, next.past⟩).1)
    (runs : ∀ {τ : Type} (dispatch : Request → τ → Access τ) (state : τ),
      ctx.turn dispatch bytes state = finish after
        (absorbUntil Request.parse parseBufSize [⟨bytes, next.past⟩] ctx.data) dispatch state) :
    Reads (fun dispatch state => ctx.turn dispatch bytes state) ctx bytes
      [(ctx.readTurn bytes).1] (ctx.readTurn bytes).2 := by
  have length := small.data_length
  have fits := small.fits
  rw [turned]
  refine ⟨valid, ?_, ?_, ?_, ?_, data, runs⟩
  · rw [chunksOf_cons]
    exact List.append_nil bytes
  · simpa using some_
  · simp only [calls, List.mem_singleton, forall_eq, ← sees]
    omega
  · simp only [calls, List.mem_singleton, forall_eq, ← sees]
    exact small.past_none

theorem Valid.turn {bytes : List UInt8} (some_ : bytes ≠ []) (room : bytes.length ≤ ctx.space) :
    Reads (fun dispatch state => ctx.turn dispatch bytes state) ctx bytes
      [(ctx.readTurn bytes).1] (ctx.readTurn bytes).2 := by
  have reset := valid.reset
  have fits := reset.fits
  rw [LibeventCtx.space] at room
  obtain ⟨next, removed, valid', appended⟩ := reset.remove bytes (by omega)
  have sees : next.data = seen parseBufSize ctx.data ⟨bytes, next.past⟩ :=
    appended.trans (valid.reset_data bytes _)
  have length := valid'.data_length
  have still {after : LibeventCtx} (afterValid : after.Valid)
      (kept : absorb Request.parse parseBufSize ctx.data ⟨bytes, next.past⟩ = (after.data, []))
      (goes : faulty (Request.parse next.past next.data) = false)
      (turns : ∀ {τ : Type} (dispatch : Request → τ → Access τ) (state : τ),
        ctx.turn dispatch bytes state = .ok (after, state)) :
      Reads (fun dispatch state => ctx.turn dispatch bytes state) ctx bytes
        [(ctx.readTurn bytes).1] (ctx.readTurn bytes).2 := by
    refine reads_turn some_ valid' sees afterValid ?_ (congrArg Prod.fst kept).symm
      fun dispatch state => ?_
    · rw [readTurn, removed, turns]
    · rw [turns, absorbUntil_singleton, kept, ← sees, goes]
      rfl
  cases outcome : Request.parse next.past next.data with
  | Complete offset req =>
      obtain ⟨more, inside⟩ := request_takes _ _ _ _ outcome
      obtain ⟨after, shifted, shiftedValid, dropped⟩ := valid'.shift more (by omega)
      have turns {τ : Type} (dispatch : Request → τ → Access τ) (state : τ) :
          ctx.turn dispatch bytes state = (dispatch req state).map fun state => (after, state) := by
        rw [LibeventCtx.turn, removed, ok_bind, outcome]
        dsimp only
        cases dispatch req state with
        | error fault => rfl
        | ok state =>
            rw [ok_bind, shifted]
            rfl
      refine reads_turn some_ valid' sees shiftedValid ?_ ?_ fun dispatch state => ?_
      · rw [readTurn, removed, turns]
        rfl
      · rw [absorb, ← sees, outcome, dropped]
        rfl
      · rw [turns, absorbUntil_singleton, absorb, ← sees, outcome]
        refine Eq.trans ?_ (finish_ok after [req] dispatch state).symm
        rw [dispatchAll]
        cases dispatch req state <;> rfl
  | Partial =>
      refine still valid' ?_ (by rw [outcome]; rfl) fun dispatch state => ?_
      · rw [absorb, ← sees, outcome]
        rfl
      · rw [LibeventCtx.turn, removed, ok_bind, outcome]
        rfl
  | Failure error =>
      refine still valid'.empty ?_ (by rw [outcome]; rfl) fun dispatch state => ?_
      · rw [absorb, ← sees, outcome]
        rfl
      · rw [LibeventCtx.turn, removed, ok_bind, outcome]
        rfl
  | Fault =>
      have turns {τ : Type} (dispatch : Request → τ → Access τ) (state : τ) :
          ctx.turn dispatch bytes state = .error .outOfBounds := by
        rw [LibeventCtx.turn, removed, ok_bind, outcome]
      refine reads_turn some_ valid' sees valid'.empty ?_ ?_ fun dispatch state => ?_
      · rw [readTurn, removed, turns]
      · rw [absorb, ← sees, outcome]
        rfl
      · rw [turns, absorbUntil_singleton, ← sees, outcome]
        rfl

def reads (self : LibeventCtx) : List UInt8 → List (Read UInt8) × LibeventCtx
  | [] => ([], self)
  | first :: more =>
      let toRead := min (first :: more).length self.space
      let (read, after) := self.readTurn ((first :: more).take toRead)
      let (reads, last) := after.reads ((first :: more).drop toRead)
      (read :: reads, last)
termination_by input => input.length
decreasing_by exact LibeventCtx.drop_shrinks _ _ _

theorem Valid.reads (input : List UInt8) :
    Reads (fun dispatch state => compyLibeventCb dispatch ctx state input) ctx input
      (ctx.reads input).1 (ctx.reads input).2 := by
  induction size : input.length using Nat.strong_induction_on generalizing ctx input with
  | _ count ih =>
      cases input with
      | nil =>
          simp only [compyLibeventCb, LibeventCtx.reads]
          exact .none valid
      | cons first more =>
          have pos := ctx.space_pos
          have room : ((first :: more).take (min (first :: more).length ctx.space)).length ≤
              ctx.space := by
            rw [List.length_take]
            omega
          have some_ : (first :: more).take (min (first :: more).length ctx.space) ≠ [] := by
            apply List.ne_nil_of_length_pos
            rw [List.length_take, List.length_cons]
            omega
          have turns := valid.turn some_ room
          have rest := ih _ (by rw [← size]; exact ctx.drop_shrinks first more) turns.valid _ rfl
          have both := turns.append (fun self {_} dispatch state =>
            compyLibeventCb dispatch self state
              ((first :: more).drop (min (first :: more).length ctx.space))) rest
          rw [List.take_append_drop] at both
          rw [LibeventCtx.reads]
          simp only [compyLibeventCb]
          exact both

end LibeventCtx

def sessionReads : List (List UInt8) → LibeventCtx → List (Read UInt8) × LibeventCtx
  | [], ctx => ([], ctx)
  | input :: inputs, ctx =>
      ((ctx.reads input).1 ++ (sessionReads inputs (ctx.reads input).2).1,
        (sessionReads inputs (ctx.reads input).2).2)

theorem sessionReads_append (front back : List (List UInt8)) (ctx : LibeventCtx) :
    sessionReads (front ++ back) ctx =
      ((sessionReads front ctx).1 ++ (sessionReads back (sessionReads front ctx).2).1,
        (sessionReads back (sessionReads front ctx).2).2) := by
  induction front generalizing ctx with
  | nil => rfl
  | cons input front ih =>
      rw [List.cons_append, sessionReads, ih, sessionReads]
      simp only [List.append_assoc]

theorem LibeventCtx.Valid.sessionReads {ctx : LibeventCtx} (valid : ctx.Valid)
    (inputs : List (List UInt8)) :
    Reads (fun dispatch state => runCallbacks dispatch inputs ctx state) ctx inputs.flatten
      (sessionReads inputs ctx).1 (sessionReads inputs ctx).2 := by
  induction inputs generalizing ctx with
  | nil => exact .none valid
  | cons input inputs ih =>
      have first := valid.reads input
      exact first.append (fun self {_} dispatch state =>
        runCallbacks dispatch inputs self state) (ih first.valid)

theorem LibeventCtx.Valid.reads_once {ctx : LibeventCtx} (valid : ctx.Valid) {input : List UInt8}
    (some_ : input ≠ []) (room : ctx.data.length + input.length ≤ parseBufSize) :
    (ctx.reads input).1.map Read.chunk = [input] ∧
      (ctx.reads input).2.data.length ≤ ctx.data.length + input.length := by
  have length := valid.data_length
  have fits : input.length ≤ ctx.space := by
    rw [LibeventCtx.space, LibeventCtx.reset]
    split
    · show input.length ≤ parseBufSize - 0
      omega
    · omega
  have space : min input.length ctx.space = input.length := Nat.min_eq_left fits
  have turns := valid.turn some_ fits
  have chunk : (ctx.readTurn input).1.chunk = input := by
    have stream := turns.stream
    rwa [chunksOf_cons, chunksOf, List.map_nil, List.flatten_nil, List.append_nil] at stream
  obtain ⟨first, more, rfl⟩ := List.exists_cons_of_ne_nil some_
  have reads : ctx.reads (first :: more) =
      ([(ctx.readTurn (first :: more)).1], (ctx.readTurn (first :: more)).2) := by
    rw [LibeventCtx.reads]
    simp only [space, List.take_length, List.drop_length]
    rw [LibeventCtx.reads]
  rw [reads, List.map_singleton, chunk, turns.data]
  refine ⟨rfl, ?_⟩
  have shrinks := @absorb_length _ _ _ Request.parse parseBufSize ctx.data
    (ctx.readTurn (first :: more)).1
  rwa [chunk] at shrinks

theorem LibeventCtx.Valid.session_chunks {ctx : LibeventCtx} (valid : ctx.Valid)
    (chunks : List (List UInt8)) (nonempty : ∀ chunk ∈ chunks, chunk ≠ [])
    (room : ctx.data.length + chunks.flatten.length ≤ parseBufSize) :
    (Connection.sessionReads chunks ctx).1.map Read.chunk = chunks := by
  induction chunks generalizing ctx with
  | nil => rfl
  | cons chunk chunks ih =>
      obtain ⟨here, later⟩ := List.forall_mem_cons.mp nonempty
      rw [List.flatten_cons, List.length_append] at room
      obtain ⟨once, less⟩ := valid.reads_once here (by omega)
      have rest := ih (valid.reads chunk).valid later (by omega)
      rw [Connection.sessionReads, List.map_append, once, rest]
      rfl

/-- The requests that the callbacks dispatch, and whether they leave the buffer behind these. -/
def servedBy (ctx : LibeventCtx) (inputs : List (List UInt8)) : List Request × Bool :=
  absorbUntil Request.parse parseBufSize (sessionReads inputs ctx).1 ctx.data

theorem LibeventCtx.Valid.session_runs {ctx : LibeventCtx} (valid : ctx.Valid) {τ : Type}
    (inputs : List (List UInt8)) (dispatch : Request → τ → Access τ) (state : τ) :
    runCallbacks dispatch inputs ctx state =
      finish (Connection.sessionReads inputs ctx).2 (servedBy ctx inputs) dispatch state :=
  (valid.sessionReads inputs).runs dispatch state

theorem LibeventCtx.Valid.servedBy_append {ctx : LibeventCtx} (valid : ctx.Valid)
    (front back : List (List UInt8)) : servedBy ctx (front ++ back) =
      if (servedBy ctx front).2 then servedBy ctx front
      else ((servedBy ctx front).1 ++ (servedBy (Connection.sessionReads front ctx).2 back).1,
        (servedBy (Connection.sessionReads front ctx).2 back).2) := by
  have data := (valid.sessionReads front).data
  rw [servedBy, sessionReads_append, absorbUntil_append, ← data]
  rfl

/-- Some call of the parser is for a full buffer that ends with the slash of the version, behind
which it looks for a digit. -/
def Overruns (ctx : LibeventCtx) (inputs : List (List UInt8)) : Prop :=
  ∃ call ∈ calls Request.parse parseBufSize (sessionReads inputs ctx).1 ctx.data,
    call.2.length = parseBufSize ∧ EndsAtSlash RequestSlash call.2

theorem LibeventCtx.Valid.overruns_cases {ctx : LibeventCtx} (valid : ctx.Valid)
    (inputs : List (List UInt8)) : Overruns ctx inputs ∧ (servedBy ctx inputs).2 = true ∨
      ¬ Overruns ctx inputs ∧ servedBy ctx inputs = ((absorbAll Request.parse parseBufSize
        (Connection.sessionReads inputs ctx).1 ctx.data).2, false) := by
  have reads := valid.sessionReads inputs
  have faults (call : Option UInt8 × List UInt8) (member : call ∈ calls Request.parse parseBufSize
      (Connection.sessionReads inputs ctx).1 ctx.data) :
      Request.parse call.1 call.2 = .Fault ↔
        call.2.length = parseBufSize ∧ EndsAtSlash RequestSlash call.2 := by
    rw [request_fault_iff, reads.ends call member]
  rcases absorbUntil_cases (Connection.sessionReads inputs ctx).1 ctx.data with
    ⟨left, call, member, fault⟩ | ⟨same, quiet⟩
  · exact Or.inl ⟨⟨call, member, (faults call member).mp fault⟩, left⟩
  · refine Or.inr ⟨?_, same⟩
    rintro ⟨call, member, overrun⟩
    exact quiet call member ((faults call member).mpr overrun)

theorem LibeventCtx.Valid.overruns_iff {ctx : LibeventCtx} (valid : ctx.Valid)
    (inputs : List (List UInt8)) : Overruns ctx inputs ↔ (servedBy ctx inputs).2 = true := by
  rcases valid.overruns_cases inputs with ⟨overrun, left⟩ | ⟨inside, same⟩
  · exact iff_of_true overrun left
  · rw [same]
    exact iff_of_false inside Bool.false_ne_true

theorem servedBy_serves (inputs : List (List UInt8)) :
    Serves Request.parse inputs.flatten (servedBy .new inputs).1
      (if (servedBy .new inputs).2 then [] else (sessionReads inputs .new).2.data) := by
  have reads := LibeventCtx.new_valid.sessionReads inputs
  have within := fun past input offset req accepted =>
    (request_takes past input offset req accepted).2
  have start : Serves Request.parse [] [] [] := ⟨[], [], rfl, .nil [], .nil⟩
  split
  · have served := absorbUntil_serves within parseBufSize (sessionReads inputs .new).1 start
    rw [List.nil_append, List.nil_append, reads.stream] at served
    exact served
  · rename_i inside
    rcases LibeventCtx.new_valid.overruns_cases inputs with ⟨_, left⟩ | ⟨_, same⟩
    · exact absurd left inside
    · have served := absorbAll_serves within parseBufSize (sessionReads inputs .new).1 start
      rw [List.nil_append, List.nil_append, reads.stream] at served
      rw [same, reads.data]
      exact served

/-- An access leaves the buffer exactly when the data overrun it; the requests that have been
dispatched by then come from parts of the stream that lie in it in this order, apart from each
other and in front of the bytes that are kept. -/
theorem callbacks_dispatch (inputs : List (List UInt8)) :
    ∃ (after : LibeventCtx) (reqs : List Request), after.Valid ∧
      (Overruns .new inputs ∧ Serves Request.parse inputs.flatten reqs [] ∧
          (∀ {τ : Type} (dispatch : Request → τ → Access τ) (state : τ),
            runCallbacks dispatch inputs .new state =
              dispatchAll dispatch reqs state >>= fun _ => .error .outOfBounds) ∨
        ¬ Overruns .new inputs ∧ Serves Request.parse inputs.flatten reqs after.data ∧
          ∀ {τ : Type} (dispatch : Request → τ → Access τ) (state : τ),
            runCallbacks dispatch inputs .new state =
              (dispatchAll dispatch reqs state).map fun state => (after, state)) := by
  have reads := LibeventCtx.new_valid.sessionReads inputs
  have serves := servedBy_serves inputs
  refine ⟨_, (servedBy .new inputs).1, reads.valid, ?_⟩
  rcases LibeventCtx.new_valid.overruns_cases inputs with ⟨overrun, left⟩ | ⟨inside, same⟩
  · rw [if_pos left] at serves
    refine Or.inl ⟨overrun, serves, fun dispatch state => ?_⟩
    rw [LibeventCtx.new_valid.session_runs, finish, left]
    rfl
  · rw [same, if_neg Bool.false_ne_true] at serves
    rw [same]
    refine Or.inr ⟨inside, serves, fun dispatch state => ?_⟩
    rw [LibeventCtx.new_valid.session_runs, same, finish_ok]

/-! ## Requests that arrive whole -/

/-- The calls of the parser that lose what has arrived: it sees no reason to wait there, or it
waits for what there is no room for. -/
def Spoils (past : Option UInt8) (data : List UInt8) : Prop :=
  CutBehindSlash RequestSlash past data ∨ CutBehindHeaders RequestLineBytes data ∨
    (parseBufSize ≤ data.length ∧ ¬ NotCr data)

section

variable {past : Option UInt8} {bytes : List UInt8} {req : Request}
  (accepted : Request.parse past bytes = .Complete bytes.length req)

include accepted

theorem request_waits_cr (past' : Option UInt8) {after : List UInt8}
    (cr : ¬ NotCr (bytes ++ after)) : Request.parse past' (bytes ++ after) = .Partial := by
  have line : NotCr (bytes ++ (after ++ charSlice "\n")) := by
    rw [← List.append_assoc]
    exact (notCr_behind (List.cons_ne_nil _ _)).mpr (by decide)
  have followed := (message_followed_iff requestLine_starts past past bytes
    (after ++ charSlice "\n") _ req accepted)
  rw [List.take_length] at followed
  rw [← List.append_assoc] at followed line
  exact message_cr_waits requestLine_starts past past' _ (bytes ++ after) _ req
    (followed.mpr line) (List.prefix_append _ _) (not_not.mp cr)

theorem framed_request (small : bytes.length ≤ parseBufSize) :
    Framed Request.parse parseBufSize Spoils bytes req where
  present empty := by
    rw [empty] at accepted
    exact absurd (request_takes _ _ _ _ accepted).1 (Nat.lt_irrefl 0)
  fits := small
  waits past' other starts short good := by
    rw [← List.take_length (l := bytes)] at starts
    refine (message_prefix_iff requestLine_starts past past' bytes other _ req accepted starts
      short).mpr fun cut => good ?_
    rcases cut with slash | headers
    · exact Or.inl slash
    · exact Or.inr (Or.inl headers)
  found past' after good := by
    by_cases notCr : NotCr (bytes ++ after)
    · have followed := message_followed_iff requestLine_starts past past' bytes after _ req accepted
      rw [List.take_length] at followed
      exact Or.inl (followed.mpr notCr)
    · refine Or.inr ⟨request_waits_cr accepted past' notCr, ?_⟩
      by_contra full
      exact good (Or.inr (Or.inr ⟨Nat.le_of_not_lt full, notCr⟩))

end

/-- The bytes are a request by themselves, and there is room for them. -/
def Whole (message : List UInt8 × Request) : Prop :=
  message.1.length ≤ parseBufSize ∧
    ∃ past, Request.parse past message.1 = .Complete message.1.length message.2

/-- Requests that follow each other, cut anywhere and as many to a read as there may be: unless a
call of the parser spoils them, the first of them have been dispatched, in their order and each
once, and the rest of the bytes is kept. -/
theorem callbacks_lose_nothing (messages : List (List UInt8 × Request))
    (whole : ∀ message ∈ messages, Whole message) (inputs : List (List UInt8))
    (arrived : inputs.flatten <+: bytesOf messages)
    (good : ∀ call ∈ calls Request.parse parseBufSize (sessionReads inputs .new).1 [],
      ¬ Spoils call.1 call.2) : ∃ (count : Nat) (after : LibeventCtx), after.Valid ∧
      inputs.flatten = bytesOf (messages.take count) ++ after.data ∧
      ∀ {τ : Type} (dispatch : Request → τ → Access τ) (state : τ),
        runCallbacks dispatch inputs .new state =
          (dispatchAll dispatch ((messages.take count).map Prod.snd) state).map
            fun state => (after, state) := by
  have reads := LibeventCtx.new_valid.sessionReads inputs
  have framed : ∀ message ∈ messages,
      Framed Request.parse parseBufSize Spoils message.1 message.2 := by
    intro message member
    obtain ⟨small, past, accepted⟩ := whole message member
    exact framed_request accepted small
  have starts : [] ++ chunksOf (sessionReads inputs .new).1 <+: bytesOf messages := by
    rw [reads.stream]
    exact arrived
  obtain ⟨count, values, split_, _⟩ := absorbAll_framed messages framed _ reads.nonempty []
    (Nat.two_pow_pos 12) starts reads.fits good
  refine ⟨count, _, reads.valid, ?_, fun dispatch state => ?_⟩
  · rw [reads.data, LibeventCtx.new_data, ← split_, reads.stream]
    rfl
  · have quiet : ∀ call ∈ calls Request.parse parseBufSize (sessionReads inputs .new).1 [],
        Request.parse call.1 call.2 ≠ .Fault := by
      intro call member fault
      obtain ⟨none, slash⟩ := (request_fault_iff _ _).mp fault
      refine good call member (Or.inl ⟨slash, ?_⟩)
      rw [none]
      intro c some
      contradiction
    rw [reads.quiet quiet, LibeventCtx.new_data, values]

theorem uncut_of_last {front : List UInt8} (slash : front.getLast? ≠ some '/'.toUInt8)
    (line : front.getLast? ≠ some '\n'.toUInt8) :
    ¬ (EndsAtSlash RequestSlash front ∨ CutBehindHeaders RequestLineBytes front) := by
  rw [EndsAtSlash, ← consumes_slash_iff requestLine_starts none,
    ← consumes_headers_iff requestLine_starts none]
  rintro (atSlash | atHeaders)
  · exact slash (atSlash.getLast? (EndsWith.bind _ fun _ => requestLine_starts.slash_ends))
  · exact line (atHeaders.getLast? (EndsWith.bind _ fun _ => EndsWith.bind _ fun _ =>
      ends_headerLines 31))

theorem optionsBytes_whole : Whole (optionsBytes, optionsRequest) :=
  ⟨by decide, none, optionsBytes_accepted⟩

def pipelinedBytes : List UInt8 := optionsBytes ++ charSlice "OPTIONS * "

theorem pipelinedBytes_calls : ∀ call ∈ calls Request.parse parseBufSize
    (sessionReads [pipelinedBytes] .new).1 [], ¬ Spoils call.1 call.2 := by
  have chunks := LibeventCtx.new_valid.session_chunks [pipelinedBytes]
    (List.forall_mem_singleton.mpr (by decide)) (by decide)
  obtain ⟨read, reads, chunk⟩ := List.map_eq_singleton_iff.mp chunks
  rw [reads]
  intro call member
  rw [calls, calls, List.mem_singleton, seen_stays (by decide), chunk, List.nil_append] at member
  rw [member]
  have uncut := @uncut_of_last pipelinedBytes (by decide) (by decide)
  rintro (⟨slash, _⟩ | headers | ⟨full, _⟩)
  · exact uncut (Or.inl slash)
  · exact uncut (Or.inr headers)
  · exact absurd full (show ¬ parseBufSize ≤ pipelinedBytes.length by decide)

theorem pipelinedBytes_kept : ∃ (count : Nat) (after : LibeventCtx), after.Valid ∧
    [pipelinedBytes].flatten = bytesOf ([(optionsBytes, optionsRequest),
      (optionsBytes, optionsRequest)].take count) ++ after.data ∧
    ∀ {τ : Type} (dispatch : Request → τ → Access τ) (state : τ),
      runCallbacks dispatch [pipelinedBytes] .new state =
        (dispatchAll dispatch (([(optionsBytes, optionsRequest),
          (optionsBytes, optionsRequest)].take count).map Prod.snd) state).map
            fun state => (after, state) :=
  callbacks_lose_nothing [(optionsBytes, optionsRequest), (optionsBytes, optionsRequest)]
    (by simp only [List.forall_mem_cons]
        exact ⟨optionsBytes_whole, optionsBytes_whole, fun _ none => absurd none List.not_mem_nil⟩)
    [pipelinedBytes] ⟨optionsBytes.drop 10, rfl⟩ pipelinedBytes_calls

/-! ## One request at a time -/

theorem whole_found {bytes : List UInt8} {req : Request} (whole : Whole (bytes, req))
    (past : Option UInt8) : Request.parse past bytes = .Complete bytes.length req := by
  obtain ⟨_, past', accepted⟩ := whole
  have notCr := message_notCr _ _ _ _ _ accepted
  have followed := message_followed_iff requestLine_starts past' past bytes [] _ req accepted
  rw [List.append_nil, List.take_length] at followed
  exact followed.mpr notCr

/-- A request that arrives in pieces, none of which but the last ends where the parser sees no
reason to wait. -/
structure Arrival where
  chunks : List (List UInt8)
  req : Request
  present : chunks ≠ []
  nonempty : ∀ chunk ∈ chunks, chunk ≠ []
  whole : Whole (chunks.flatten, req)
  waits : ∀ front back, chunks = front ++ back → front ≠ [] → back ≠ [] →
    ¬ (EndsAtSlash RequestSlash front.flatten ∨ CutBehindHeaders RequestLineBytes front.flatten)

namespace Arrival

variable (arrival : Arrival)

theorem found (past : Option UInt8) : Request.parse past arrival.chunks.flatten =
    .Complete arrival.chunks.flatten.length arrival.req := whole_found arrival.whole past

theorem waiting {front back : List (List UInt8)} (split_ : arrival.chunks = front ++ back)
    (some_ : front ≠ []) (more : back ≠ []) (past : Option UInt8) :
    Request.parse past front.flatten = .Partial := by
  have uncut := arrival.waits front back split_ some_ more
  have total : arrival.chunks.flatten = front.flatten ++ back.flatten := by
    rw [split_, List.flatten_append]
  have rest : back.flatten ≠ [] := by
    obtain ⟨chunk, later, rfl⟩ := List.exists_cons_of_ne_nil more
    have here := arrival.nonempty chunk (by rw [split_]; simp)
    rw [List.flatten_cons]
    exact List.append_ne_nil_of_left_ne_nil here _
  have length := List.length_pos_of_ne_nil rest
  refine (message_prefix_iff requestLine_starts none past _ front.flatten _ _
    (arrival.found none) ?_ ?_).mpr ?_
  · rw [List.take_length, total]
    exact List.prefix_append _ _
  · rw [total, List.length_append]
    omega
  · rintro (⟨slash, _⟩ | headers)
    · exact uncut (Or.inl slash)
    · exact uncut (Or.inr headers)

end Arrival

theorem LibeventCtx.Valid.served_whole {ctx : LibeventCtx} (valid : ctx.Valid)
    (chunks : List (List UInt8)) (some_ : chunks ≠ []) (nonempty : ∀ chunk ∈ chunks, chunk ≠ [])
    {req : Request} (room : (ctx.data ++ chunks.flatten).length ≤ parseBufSize)
    (found : ∀ past, Request.parse past (ctx.data ++ chunks.flatten) =
      .Complete (ctx.data ++ chunks.flatten).length req)
    (waiting : ∀ front back, chunks = front ++ back → front ≠ [] → back ≠ [] →
      ∀ past, Request.parse past (ctx.data ++ front.flatten) = .Partial) :
    servedBy ctx chunks = ([req], false) ∧
      (Connection.sessionReads chunks ctx).2.Valid ∧
      (Connection.sessionReads chunks ctx).2.data = [] := by
  have reads := valid.sessionReads chunks
  have cut := valid.session_chunks chunks nonempty (by rwa [List.length_append] at room)
  obtain ⟨taken, quiet⟩ := absorbAll_whole room found
    (Connection.sessionReads chunks ctx).1 (by
      intro none
      rw [none] at cut
      exact some_ cut.symm) reads.nonempty ctx.data (by rw [reads.stream]) (by
      intro front back split_ some_ more past
      rw [split_, List.map_append] at cut
      exact waiting _ _ cut.symm (by simpa using some_) (by simpa using more) past)
  refine ⟨?_, reads.valid, by rw [reads.data, taken]⟩
  rcases absorbUntil_cases (Connection.sessionReads chunks ctx).1 ctx.data with
    ⟨_, call, member, fault⟩ | ⟨same, _⟩
  · exact absurd fault (quiet call member)
  · rw [servedBy, same, taken]

theorem LibeventCtx.Valid.served_last {ctx : LibeventCtx} (valid : ctx.Valid) {last : List UInt8}
    (some_ : last ≠ []) {req : Request} (whole : Whole (ctx.data ++ last, req)) :
    servedBy ctx [last] = ([req], false) ∧ (ctx.reads last).2.Valid ∧
      (ctx.reads last).2.data = [] := by
  have served := @LibeventCtx.Valid.served_whole _ valid [last] (List.cons_ne_nil _ _)
    (List.forall_mem_singleton.mpr some_) req
  rw [List.flatten_singleton] at served
  apply served whole.1 (whole_found whole)
  intro front back split_ front_ back_
  have count := congrArg List.length split_
  rw [List.length_append, List.length_singleton] at count
  have one := List.length_pos_of_ne_nil front_
  have two := List.length_pos_of_ne_nil back_
  omega

theorem arrival_served (arrival : Arrival) {ctx : LibeventCtx} (valid : ctx.Valid)
    (empty : ctx.data = []) : servedBy ctx arrival.chunks = ([arrival.req], false) ∧
      (sessionReads arrival.chunks ctx).2.Valid ∧ (sessionReads arrival.chunks ctx).2.data = [] := by
  apply valid.served_whole arrival.chunks arrival.present arrival.nonempty
  · rw [empty]
    exact arrival.whole.1
  · rw [empty]
    exact arrival.found
  · rw [empty]
    exact fun front back => arrival.waiting

/-- A client that waits for the answer before it sends the next request: every request is
dispatched as soon as it has arrived. -/
theorem arrivals_served (arrivals : List Arrival) {ctx : LibeventCtx} (valid : ctx.Valid)
    (empty : ctx.data = []) :
    servedBy ctx (arrivals.flatMap Arrival.chunks) = (arrivals.map Arrival.req, false) ∧
      (sessionReads (arrivals.flatMap Arrival.chunks) ctx).2.Valid ∧
      (sessionReads (arrivals.flatMap Arrival.chunks) ctx).2.data = [] := by
  induction arrivals generalizing ctx with
  | nil => exact ⟨rfl, valid, empty⟩
  | cons arrival arrivals ih =>
      obtain ⟨first, valid', empty'⟩ := arrival_served arrival valid empty
      obtain ⟨rest, last, nothing⟩ := ih valid' empty'
      rw [List.flatMap_cons, valid.servedBy_append, sessionReads_append, first,
        if_neg Bool.false_ne_true, rest]
      exact ⟨rfl, last, nothing⟩

theorem arrivals_dispatched (arrivals : List Arrival) {ctx : LibeventCtx} (valid : ctx.Valid)
    (empty : ctx.data = []) : ∃ after : LibeventCtx, after.Valid ∧ after.data = [] ∧
      ∀ {τ : Type} (dispatch : Request → τ → Access τ) (state : τ),
        runCallbacks dispatch (arrivals.flatMap Arrival.chunks) ctx state =
          (dispatchAll dispatch (arrivals.map Arrival.req) state).map fun state =>
            (after, state) := by
  obtain ⟨served, last, nothing⟩ := arrivals_served arrivals valid empty
  refine ⟨_, last, nothing, fun dispatch state => ?_⟩
  rw [valid.session_runs, served, finish_ok]

/-! ## A whole connection -/

variable {W σ : Type}

def serve (w : Writer W) (controller : Controller σ) (req : Request) :
    σ × W → Access (σ × W) := fun (self, conn) => dispatch w controller req self conn

theorem dispatchAll_serve (w : Writer W) (controller : Controller σ) (reqs : List Request)
    (self : σ) (conn : W) : dispatchAll (serve w controller) reqs (self, conn) =
      runEvents w controller (reqs.map .request) self conn := by
  induction reqs generalizing self conn with
  | nil => rfl
  | cons req reqs ih =>
      rw [dispatchAll, List.map_cons, runEvents, serve]
      cases dispatch w controller req self conn with
      | error fault => rfl
      | ok next => exact ih next.1 next.2

def FromParser (req : Request) : Prop :=
  ∃ past input offset, Request.parse past input = .Complete offset req

theorem served_requests {reqs : List Request} {items : List Item}
    (served : Served (reqs.map .request) items) : ∃ responses : List Response,
      items = responses.map .response ∧
      List.Forall₂ (fun req response => response.cseq = req.cseq) reqs responses := by
  induction reqs generalizing items with
  | nil =>
      cases served
      exact ⟨[], rfl, .nil⟩
  | cons req reqs ih =>
      cases served with
      | request answers later =>
          obtain ⟨responses, rfl, each⟩ := ih later
          exact ⟨_ :: responses, rfl, .cons answers each⟩

theorem notCr_both {front rest : List UInt8} (one : NotCr front) (two : NotCr rest) :
    NotCr (front ++ rest) := by
  cases rest with
  | nil => rwa [List.append_nil]
  | cons first rest => exact (notCr_behind (List.cons_ne_nil first rest)).mpr two

theorem respond_notCr {response : Response} (writable : response.Writable ResponseLine.Writable) :
    NotCr (response.bytes ResponseLine.bytes) :=
  notCr_append (getLast?_of_suffix rfl (List.suffix_append _ crlf)) writable.body

theorem streamOf_notCr (uses : List WriterUse) (readable : ∀ use ∈ uses, use.Readable)
    (responses : ∀ use ∈ uses, use.isRespond = true) : NotCr (streamOf uses) := by
  induction uses with
  | nil => exact nofun
  | cons use uses ih =>
      obtain ⟨here, later⟩ := List.forall_mem_cons.mp readable
      obtain ⟨response, others⟩ := List.forall_mem_cons.mp responses
      rw [streamOf_cons]
      refine notCr_both ?_ (ih later others)
      cases use with
      | respond response => exact respond_notCr here
      | transmit call => cases response

/-- The client sends its requests one after the other, in pieces that the parser waits behind: no
assertion fails, no access leaves the buffer, and it reads one response to each of them, in their
order. -/
theorem session_answered {w : Writer W} {written : W → List UInt8} (never : w.NeverFails written)
    {controller : Controller σ} {Inv : σ → Prop} (answers : controller.Answers FromParser Inv)
    (arrivals : List Arrival) (self : σ) (inv : Inv self) (conn : W) (fresh : written conn = []) :
    ∃ (ctx : LibeventCtx) (after : σ) (conn' : W) (responses : List Response),
      runCallbacks (serve w controller) (arrivals.flatMap Arrival.chunks) .new (self, conn) =
        .ok (ctx, after, conn') ∧ ctx.data = [] ∧ Inv after ∧
      List.Forall₂ (fun arrival response => response.cseq = arrival.req.cseq) arrivals responses ∧
      ∀ past, readAll (readItem past) () (written conn').length (written conn') =
        .ok (responses.map .response) := by
  obtain ⟨ctx, _, empty, runs⟩ := arrivals_dispatched arrivals LibeventCtx.new_valid rfl
  have fits : ∀ event ∈ (arrivals.map Arrival.req).map ServerEvent.request,
      event.Fits FromParser := by
    intro event member
    obtain ⟨req, among, rfl⟩ := List.mem_map.mp member
    obtain ⟨arrival, _, rfl⟩ := List.mem_map.mp among
    exact ⟨none, _, _, arrival.found none⟩
  obtain ⟨after, conn', uses, ran, kept, added, readable, served, kinds⟩ :=
    runEvents_served never answers _ fits self inv conn
  rw [fresh, List.nil_append] at added
  obtain ⟨responses, items, each⟩ := served_requests served
  refine ⟨ctx, after, conn', responses, ?_, empty, kept, List.forall₂_map_left_iff.mp each,
    fun past => ?_⟩
  · rw [runs, dispatchAll_serve, ran]
    rfl
  · have all : ∀ use ∈ uses, use.isRespond = true := by
      intro use member
      have flag := List.mem_map_of_mem (f := WriterUse.isRespond) member
      rw [kinds, List.map_map] at flag
      obtain ⟨event, among, same⟩ := List.mem_map.mp flag
      exact same.symm
    rw [added, ← items]
    exact (readAll_uses past uses readable _ (Nat.le_refl _)).mpr
      (Or.inl (streamOf_notCr uses readable all))

def sampleArrival : Arrival where
  chunks := [optionsBytes.take 11, optionsBytes.drop 11]
  req := optionsRequest
  present := List.cons_ne_nil _ _
  nonempty := by decide
  whole := optionsBytes_whole
  waits front back split_ some_ more := by
    have front_eq : front = [optionsBytes.take 11] := by
      match front, back, split_, some_, more with
      | [_], _, rfl, _, _ => rfl
      | _ :: _ :: _, _ :: _, split_, _, _ => simp at split_
    rw [front_eq]
    exact uncut_of_last (by decide) (by decide)

end Compy.Connection
