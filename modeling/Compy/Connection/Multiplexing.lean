import Compy.Connection.EventLoop
import Compy.Library.MutualExclusion

/-!
# The connections of a server

The event loop calls the read callback of one connection at a time.  Every connection has a buffer
of its own; the requests of all of them are handled on one state.
-/

set_option autoImplicit false

namespace Compy.Connection

open CheckedBytes MutualExclusion StreamParsing Compy.Rtsp

variable {ι τ : Type} [DecidableEq ι]

/-- The read callbacks, each with the connection that it is for and what libevent has read. -/
def runConnections (dispatch : ι → Request → τ → Access τ) :
    List (ι × List UInt8) → (ι → LibeventCtx) → τ → Access ((ι → LibeventCtx) × τ)
  | [], ctxs, state => .ok (ctxs, state)
  | (i, input) :: inputs, ctxs, state => do
      let (ctx, state) ← compyLibeventCb (dispatch i) (ctxs i) state input
      runConnections dispatch inputs (Function.update ctxs i ctx) state

def dispatchOn (dispatch : ι → Request → τ → Access τ) : List (ι × Request) → τ → Access τ
  | [], state => .ok state
  | (i, req) :: reqs, state => do
      let state ← dispatch i req state
      dispatchOn dispatch reqs state

section

omit [DecidableEq ι]

variable (dispatch : ι → Request → τ → Access τ)

theorem dispatchOn_append (front back : List (ι × Request)) (state : τ) :
    dispatchOn dispatch (front ++ back) state =
      dispatchOn dispatch front state >>= dispatchOn dispatch back := by
  induction front generalizing state with
  | nil => rfl
  | cons first front ih =>
      obtain ⟨i, req⟩ := first
      rw [List.cons_append, dispatchOn, dispatchOn]
      cases dispatch i req state with
      | error fault => rfl
      | ok next => exact ih next

theorem dispatchOn_own (i : ι) (reqs : List Request) (state : τ) :
    dispatchOn dispatch (reqs.map fun req => (i, req)) state =
      dispatchAll (dispatch i) reqs state := by
  induction reqs generalizing state with
  | nil => rfl
  | cons req reqs ih =>
      rw [List.map_cons, dispatchOn, dispatchAll]
      cases dispatch i req state with
      | error fault => rfl
      | ok next => exact ih next

end

theorem ofThread_cons_own {α : Type} (i : ι) (here : α) (later : List (ι × α)) :
    ofThread i ((i, here) :: later) = here :: ofThread i later :=
  List.filterMap_cons_some (if_pos rfl)

theorem ofThread_cons_other {α : Type} {i j : ι} (other : i ≠ j) (here : α)
    (later : List (ι × α)) : ofThread j ((i, here) :: later) = ofThread j later :=
  List.filterMap_cons_none (if_neg other)

/-! ## One callback and those behind it -/

section

variable {ctx : LibeventCtx} (valid : ctx.Valid)

include valid

theorem LibeventCtx.Valid.runs (input : List UInt8) (dispatch : Request → τ → Access τ)
    (state : τ) : compyLibeventCb dispatch ctx state input =
      finish (ctx.reads input).2 (servedBy ctx [input]) dispatch state := by
  rw [(valid.reads input).runs, servedBy, Connection.sessionReads, Connection.sessionReads,
    List.append_nil]

theorem LibeventCtx.Valid.servedBy_cons (input : List UInt8) (inputs : List (List UInt8)) :
    servedBy ctx (input :: inputs) =
      if (servedBy ctx [input]).2 then servedBy ctx [input]
      else ((servedBy ctx [input]).1 ++ (servedBy (ctx.reads input).2 inputs).1,
        (servedBy (ctx.reads input).2 inputs).2) := by
  have once : Connection.sessionReads [input] ctx = ctx.reads input := by
    rw [Connection.sessionReads, Connection.sessionReads, List.append_nil]
  have both := valid.servedBy_append [input] inputs
  rw [once] at both
  exact both

end

section

variable {ctxs : ι → LibeventCtx} (valid : ∀ i, (ctxs i).Valid) {i : ι} {input : List UInt8}
  (stays : (servedBy (ctxs i) [input]).2 ≠ true)

include valid in
theorem valid_update (j : ι) : (Function.update ctxs i ((ctxs i).reads input).2 j).Valid := by
  by_cases own : j = i
  · rw [own, Function.update_self]
    exact ((valid i).reads input).valid
  · rw [Function.update_of_ne own]
    exact valid j

theorem sessionReads_update (inputs : List (ι × List UInt8)) (j : ι) :
    (sessionReads (ofThread j ((i, input) :: inputs)) (ctxs j)).2 =
      (sessionReads (ofThread j inputs)
        (Function.update ctxs i ((ctxs i).reads input).2 j)).2 := by
  by_cases own : j = i
  · rw [own, Function.update_self, ofThread_cons_own, sessionReads]
  · rw [Function.update_of_ne own, ofThread_cons_other (Ne.symm own)]

include valid stays

/-- What the connection serves in this callback goes in front of what all serve later. -/
theorem servedBy_update (inputs : List (ι × List UInt8)) (j : ι) :
    servedBy (ctxs j) (ofThread j ((i, input) :: inputs)) =
      (ofThread j ((servedBy (ctxs i) [input]).1.map fun req => (i, req)) ++
          (servedBy (Function.update ctxs i ((ctxs i).reads input).2 j) (ofThread j inputs)).1,
        (servedBy (Function.update ctxs i ((ctxs i).reads input).2 j) (ofThread j inputs)).2) := by
  by_cases own : j = i
  · rw [own, Function.update_self, ofThread_own, ofThread_cons_own, (valid i).servedBy_cons,
      if_neg stays]
  · rw [Function.update_of_ne own, ofThread_other (Ne.symm own),
      ofThread_cons_other (Ne.symm own), List.nil_append]

theorem runConnections_stays (inputs : List (ι × List UInt8))
    (dispatch : ι → Request → τ → Access τ) (state : τ) :
    runConnections dispatch ((i, input) :: inputs) ctxs state =
      dispatchOn dispatch ((servedBy (ctxs i) [input]).1.map fun req => (i, req)) state >>=
        runConnections dispatch inputs (Function.update ctxs i ((ctxs i).reads input).2) := by
  rw [runConnections, (valid i).runs, finish, dispatchOn_own]
  cases dispatchAll (dispatch i) (servedBy (ctxs i) [input]).1 state with
  | error fault => rfl
  | ok state =>
      rw [ok_bind, if_neg stays]
      rfl

end

/-! ## All callbacks -/

/-- The requests of all connections are handled one after the other, those of each connection as
if there were no other, until some connection leaves its buffer. -/
theorem connections_dispatch (inputs : List (ι × List UInt8)) {ctxs : ι → LibeventCtx}
    (valid : ∀ i, (ctxs i).Valid) :
    ∃ (after : ι → LibeventCtx) (reqs : List (ι × Request)), (∀ i, (after i).Valid) ∧
      ((∃ i, (servedBy (ctxs i) (ofThread i inputs)).2 = true) ∧
          (∀ i, ofThread i reqs <+: (servedBy (ctxs i) (ofThread i inputs)).1) ∧
          (∀ {τ : Type} (dispatch : ι → Request → τ → Access τ) (state : τ),
            runConnections dispatch inputs ctxs state =
              dispatchOn dispatch reqs state >>= fun _ => .error .outOfBounds) ∨
        (∀ i, servedBy (ctxs i) (ofThread i inputs) = (ofThread i reqs, false)) ∧
          (∀ i, after i = (sessionReads (ofThread i inputs) (ctxs i)).2) ∧
          ∀ {τ : Type} (dispatch : ι → Request → τ → Access τ) (state : τ),
            runConnections dispatch inputs ctxs state =
              (dispatchOn dispatch reqs state).map fun state => (after, state)) := by
  induction inputs generalizing ctxs with
  | nil => exact ⟨ctxs, [], valid, Or.inr ⟨fun _ => rfl, fun _ => rfl, fun _ _ => rfl⟩⟩
  | cons first inputs ih =>
      obtain ⟨i, input⟩ := first
      by_cases left : (servedBy (ctxs i) [input]).2 = true
      · have here := (valid i).servedBy_cons input (ofThread i inputs)
        rw [← ofThread_cons_own i input inputs, if_pos left] at here
        refine ⟨ctxs, (servedBy (ctxs i) [input]).1.map fun req => (i, req), valid,
          Or.inl ⟨⟨i, by rw [here, left]⟩, fun j => ?_, fun dispatch state => ?_⟩⟩
        · by_cases own : i = j
          · rw [← own, ofThread_own, here]
          · rw [ofThread_other own]
            exact List.nil_prefix
        · rw [runConnections, (valid i).runs, finish, left, dispatchOn_own]
          cases dispatchAll (dispatch i) (servedBy (ctxs i) [input]).1 state <;> rfl
      · obtain ⟨after, reqs, valid', outcome⟩ := ih (valid_update valid)
        refine ⟨after, ((servedBy (ctxs i) [input]).1.map fun req => (i, req)) ++ reqs, valid', ?_⟩
        rcases outcome with ⟨⟨j, overrun⟩, fronts, failed⟩ | ⟨all, ends, done⟩
        · refine Or.inl ⟨⟨j, ?_⟩, fun j => ?_, fun dispatch state => ?_⟩
          · rw [servedBy_update valid left, overrun]
          · rw [servedBy_update valid left, ofThread_append]
            exact (List.prefix_append_right_inj _).mpr (fronts j)
          · rw [runConnections_stays valid left, dispatchOn_append]
            cases dispatchOn dispatch _ state with
            | error fault => rfl
            | ok state => exact failed dispatch state
        · refine Or.inr ⟨fun j => ?_, fun j => ?_, fun dispatch state => ?_⟩
          · rw [servedBy_update valid left, ofThread_append, all]
          · rw [ends, sessionReads_update]
          · rw [runConnections_stays valid left, dispatchOn_append]
            cases dispatchOn dispatch _ state with
            | error fault => rfl
            | ok state => exact done dispatch state

end Compy.Connection
