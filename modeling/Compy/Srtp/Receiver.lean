import Compy.Srtp.Receive

/-!
# Runs of a receive context

A context that is handed arrivals of some kind, one after the other.  `Link` says
what a call does with an arrival and which number it carries, if it is one of the
packets a sender counts.  `delivered` and `outcomes` are history: the numbers so
far, latest first, and what each call answered.
-/

set_option autoImplicit false

namespace Compy.Srtp

open CheckedBytes

variable {α : Type}

structure Link (α : Type) where
  recv : SrtpRecvCtx → α → Access RecvOutcome
  number : α → Option Nat

structure Receiver (α : Type) where
  ctx : SrtpRecvCtx
  delivered : List Nat
  outcomes : List (α × RecvOutcome)

def Receiver.start (ops : CryptoSrtpOps) (suite : SrtpSuite) (key : SrtpKeyMaterial) :
    Receiver α := ⟨srtpRecvNew ops suite key, [], []⟩

def Receiver.receive (link : Link α) (self : Receiver α) (arrival : α) :
    Access (Receiver α) := do
  let out ← link.recv self.ctx arrival
  return ⟨out.ctx, (link.number arrival).toList ++ self.delivered,
    self.outcomes ++ [(arrival, out)]⟩

def Receiver.run (link : Link α) : List α → Receiver α → Access (Receiver α)
  | [], receiver => .ok receiver
  | arrival :: rest, receiver => do
      let next ← receiver.receive link arrival
      Receiver.run link rest next

/-- `P` holds of the receiver and the arrival at every step. -/
def Receiver.Along (link : Link α) (P : Receiver α → α → Prop) : List α → Receiver α → Prop
  | [], _ => True
  | arrival :: rest, receiver => P receiver arrival ∧
      ∀ next, receiver.receive link arrival = .ok next → Receiver.Along link P rest next

theorem Receiver.receive_ok (link : Link α) (receiver : Receiver α) (arrival : α)
    (out : RecvOutcome) (returned : link.recv receiver.ctx arrival = .ok out) :
    receiver.receive link arrival = .ok
      ⟨out.ctx, (link.number arrival).toList ++ receiver.delivered,
        receiver.outcomes ++ [(arrival, out)]⟩ := by
  rw [Receiver.receive, returned]
  rfl

theorem Receiver.receive_delivered (link : Link α) (receiver next : Receiver α) (arrival : α)
    (received : receiver.receive link arrival = .ok next) :
    next.delivered = (link.number arrival).toList ++ receiver.delivered := by
  cases returned : link.recv receiver.ctx arrival with
  | error fault =>
      rw [Receiver.receive, returned] at received
      contradiction
  | ok out =>
      rw [Receiver.receive_ok link receiver arrival out returned] at received
      rw [← Except.ok.inj received]

/-- What every admissible step keeps, every run of admissible steps keeps, and
such a run answers every arrival. -/
theorem Receiver.run_keeps (link : Link α) (P : Receiver α → α → Prop) (Inv : Receiver α → Prop)
    (step : ∀ receiver arrival, Inv receiver → P receiver arrival →
      ∃ out next, receiver.receive link arrival = .ok next ∧ Inv next ∧
        next.outcomes = receiver.outcomes ++ [(arrival, out)])
    (arrivals : List α) (receiver : Receiver α) (sound : Inv receiver)
    (along : Receiver.Along link P arrivals receiver) :
    ∃ final, Receiver.run link arrivals receiver = .ok final ∧ Inv final ∧
      final.outcomes.map Prod.fst = receiver.outcomes.map Prod.fst ++ arrivals := by
  induction arrivals generalizing receiver with
  | nil => exact ⟨receiver, rfl, sound, (List.append_nil _).symm⟩
  | cons arrival rest ih =>
      obtain ⟨here, later⟩ := along
      obtain ⟨out, next, received, kept, outcomes⟩ := step receiver arrival sound here
      obtain ⟨final, ran, sound, all⟩ := ih next kept (later next received)
      refine ⟨final, ?_, sound, ?_⟩
      · rw [Receiver.run, received]
        exact ran
      · rw [all, outcomes, List.map_append, List.append_assoc]
        rfl

theorem Receiver.run_append (link : Link α) (arrivals : List α) (last : α)
    (receiver : Receiver α) :
    Receiver.run link (arrivals ++ [last]) receiver =
      Receiver.run link arrivals receiver >>= fun before => before.receive link last := by
  induction arrivals generalizing receiver with
  | nil =>
      rw [List.nil_append, Receiver.run, Receiver.run, ok_bind]
      cases receiver.receive link last with
      | error fault => rfl
      | ok next => rfl
  | cons arrival rest ih =>
      rw [List.cons_append, Receiver.run, Receiver.run]
      cases receiver.receive link arrival with
      | error fault => rfl
      | ok next =>
          rw [ok_bind, ok_bind]
          exact ih next

theorem Receiver.along_append (link : Link α) (P : Receiver α → α → Prop) (arrivals : List α)
    (last : α) (receiver : Receiver α) (before : Receiver.Along link P arrivals receiver)
    (here : ∀ final, Receiver.run link arrivals receiver = .ok final → P final last) :
    Receiver.Along link P (arrivals ++ [last]) receiver := by
  induction arrivals generalizing receiver with
  | nil => exact ⟨here receiver rfl, fun _ _ => trivial⟩
  | cons arrival rest ih =>
      refine ⟨before.1, fun next received => ih next (before.2 next received) ?_⟩
      intro final ran
      apply here final
      rw [Receiver.run, received]
      exact ran

theorem Receiver.along_mono (link : Link α) (P Q : Receiver α → α → Prop)
    (weaker : ∀ receiver arrival, P receiver arrival → Q receiver arrival) (arrivals : List α)
    (receiver : Receiver α) (along : Receiver.Along link P arrivals receiver) :
    Receiver.Along link Q arrivals receiver := by
  induction arrivals generalizing receiver with
  | nil => trivial
  | cons arrival rest ih =>
      exact ⟨weaker receiver arrival along.1,
        fun next received => ih next (along.2 next received)⟩

end Compy.Srtp
