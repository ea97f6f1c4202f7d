import Compy.Rtp.Payloads
import Compy.Rtp.Transport

/-!
# Packets sent at the periods of a timer

What the players of the example server have in common: a timer that sends some packets at every
period, on a transport over something that is also used in between, until its callback deletes
it.
-/

set_option autoImplicit false

namespace Compy.Rtp

open CheckedBytes

variable {γ ρ : Type}

/-- `Compy_RtpTransport_send_packet`, its timestamp included. -/
abbrev TimedSend (ρ : Type) := RtpTimestamp → RtpSend ρ

/-- The context of a player: its place in the file, and whether its timer is still to fire. -/
structure Playing (γ ρ : Type) where
  place : γ
  transport : ρ
  pending : Bool
  streamsPlaying : Int

/-- The timer fires, or something else uses what the transport is on top of. -/
inductive PlayEvent (ρ : Type) where
  | period
  | meanwhile (change : ρ → ρ)

def PlayEvent.isPeriod : PlayEvent ρ → Bool
  | .period => true
  | .meanwhile _ => false

def playEvents (callback : Playing γ ρ → Access (Playing γ ρ)) :
    List (PlayEvent ρ) → Playing γ ρ → Access (Playing γ ρ)
  | [], ctx => .ok ctx
  | .period :: events, ctx =>
      if ctx.pending then do
        let ctx ← callback ctx
        playEvents callback events ctx
      else playEvents callback events ctx
  | .meanwhile change :: events, ctx =>
      playEvents callback events { ctx with transport := change ctx.transport }

/-! ## A transport that takes every packet -/

/-- Payloads within the limit go through. -/
def Willing (limit : Nat) (send : TimedSend ρ) : Prop :=
  ∀ ts marker header data t, header.length + data.length ≤ limit →
    ∃ t' ret, send ts marker header data t = .ok (t', ret) ∧ ret ≠ -1

/-- One call after the other, whatever comes back. -/
def sendTimed (send : TimedSend ρ) : List (UInt32 × RtpPayload) → ρ → Access ρ
  | [], t => .ok t
  | (ts, packet) :: packets, t => do
      let (t, _) ← send (.raw ts) packet.marker packet.header packet.data t
      sendTimed send packets t

theorem sendTimed_append (send : TimedSend ρ) (first second : List (UInt32 × RtpPayload)) (t : ρ) :
    sendTimed send (first ++ second) t = (do
      let t ← sendTimed send first t
      sendTimed send second t) := by
  induction first generalizing t with
  | nil => rfl
  | cons packet first ih =>
      rw [List.cons_append, sendTimed, sendTimed]
      cases send (.raw packet.1) packet.2.marker packet.2.header packet.2.data t with
      | error fault => rfl
      | ok result => exact ih result.1

theorem sendAll_timed {limit : Nat} {send : TimedSend ρ} (willing : Willing limit send)
    (ts : UInt32) (packets : List RtpPayload)
    (short : ∀ packet ∈ packets, packet.bytes.length ≤ limit) (t : ρ) :
    ∃ t', sendAll (send (.raw ts)) packets t = .ok (t', 0) ∧
      sendTimed send (packets.map (Prod.mk ts)) t = .ok t' := by
  induction packets generalizing t with
  | nil => exact ⟨t, rfl, rfl⟩
  | cons packet packets ih =>
      obtain ⟨here, later⟩ := List.forall_mem_cons.mp short
      rw [RtpPayload.bytes, List.length_append] at here
      obtain ⟨next, ret, sent, other⟩ := willing (.raw ts) packet.marker packet.header packet.data
        t here
      obtain ⟨final, rest, timed⟩ := ih later next
      refine ⟨final, ?_, ?_⟩
      · rw [sendAll, sent, ok_bind]
        dsimp only
        rw [if_neg other, rest]
      · rw [List.map_cons, sendTimed, sent]
        exact timed

/-! ## A plan -/

/-- The packets of every period, with their timestamps. -/
abbrev PlayPlan := List (List (UInt32 × RtpPayload))

/-- Every period sends the packets that are next. -/
def sendPlan (send : TimedSend ρ) : List (PlayEvent ρ) → PlayPlan → ρ → Access ρ
  | [], _, t => .ok t
  | .period :: events, [], t => sendPlan send events [] t
  | .period :: events, packets :: rest, t => do
      let t ← sendTimed send packets t
      sendPlan send events rest t
  | .meanwhile change :: events, plan, t => sendPlan send events plan (change t)

/-- At a place that is `Ready` for a plan the callback sends its first packets and gets ready for
the others; with the last packets it deletes the timer. -/
def FollowsPlan (send : TimedSend ρ) (callback : Playing γ ρ → Access (Playing γ ρ))
    (Ready : PlayPlan → γ → Prop) : Prop :=
  ∀ packets rest (ctx : Playing γ ρ), Ready (packets :: rest) ctx.place → ctx.pending = true →
    ∃ ctx', callback ctx = .ok ctx' ∧ sendTimed send packets ctx.transport = .ok ctx'.transport ∧
      if rest = [] then ctx'.pending = false ∧ ctx'.streamsPlaying = ctx.streamsPlaying - 1
      else ctx'.pending = true ∧ ctx'.streamsPlaying = ctx.streamsPlaying ∧ Ready rest ctx'.place

/-- What the events leave behind. -/
structure Played (send : TimedSend ρ) (events : List (PlayEvent ρ)) (plan : PlayPlan)
    (ctx ctx' : Playing γ ρ) : Prop where
  sent : sendPlan send events plan ctx.transport = .ok ctx'.transport
  pending : ctx'.pending = decide (events.countP PlayEvent.isPeriod < plan.length)
  streamsPlaying : ctx'.streamsPlaying =
    if events.countP PlayEvent.isPeriod < plan.length then ctx.streamsPlaying
    else ctx.streamsPlaying - 1

theorem Played.streamsPlaying_pending {send : TimedSend ρ} {events : List (PlayEvent ρ)}
    {plan : PlayPlan} {ctx ctx' : Playing γ ρ} {count : Int}
    (played : Played send events plan ctx ctx') (started : ctx.streamsPlaying = count + 1) :
    ctx'.streamsPlaying = if ctx'.pending then count + 1 else count := by
  rw [played.streamsPlaying, played.pending, started]
  by_cases more : events.countP PlayEvent.isPeriod < plan.length
  · rw [if_pos more, if_pos (decide_eq_true more)]
  · rw [if_neg more, if_neg (by rw [decide_eq_false more]; exact Bool.false_ne_true)]
    exact Int.add_sub_cancel count 1

theorem playEvents_stopped (send : TimedSend ρ) (callback : Playing γ ρ → Access (Playing γ ρ))
    (events : List (PlayEvent ρ)) (ctx : Playing γ ρ) (stopped : ctx.pending = false) :
    ∃ t, playEvents callback events ctx = .ok { ctx with transport := t } ∧
      sendPlan send events [] ctx.transport = .ok t := by
  induction events generalizing ctx with
  | nil => exact ⟨ctx.transport, rfl, rfl⟩
  | cons event events ih =>
      cases event with
      | period =>
          rw [playEvents, if_neg (by rw [stopped]; exact Bool.false_ne_true)]
          exact ih ctx stopped
      | meanwhile change => exact ih { ctx with transport := change ctx.transport } stopped

theorem playEvents_played {send : TimedSend ρ} {callback : Playing γ ρ → Access (Playing γ ρ)}
    {Ready : PlayPlan → γ → Prop} (follows : FollowsPlan send callback Ready)
    (events : List (PlayEvent ρ)) (plan : PlayPlan) (some_ : plan ≠ []) (ctx : Playing γ ρ)
    (ready : Ready plan ctx.place) (pending : ctx.pending = true) :
    ∃ ctx', playEvents callback events ctx = .ok ctx' ∧ Played send events plan ctx ctx' := by
  induction events generalizing plan ctx with
  | nil =>
      have positive := List.length_pos_of_ne_nil some_
      refine ⟨ctx, rfl, rfl, ?_, (if_pos positive).symm⟩
      rw [pending]
      exact (decide_eq_true positive).symm
  | cons event events ih =>
      cases event with
      | meanwhile change =>
          obtain ⟨ctx', ran, played⟩ := ih plan some_
            { ctx with transport := change ctx.transport } ready pending
          exact ⟨ctx', ran, played.sent, played.pending, played.streamsPlaying⟩
      | period =>
          obtain ⟨packets, rest, rfl⟩ := List.exists_cons_of_ne_nil some_
          obtain ⟨middle, ran, sent, goes⟩ := follows packets rest ctx ready pending
          have fired : (PlayEvent.period :: events).countP PlayEvent.isPeriod =
              events.countP PlayEvent.isPeriod + 1 := List.countP_cons_of_pos rfl
          rw [playEvents, if_pos pending, ran, ok_bind]
          by_cases last : rest = []
          · rw [if_pos last] at goes
            obtain ⟨stopped, playing⟩ := goes
            obtain ⟨t, quiet, nothing⟩ := playEvents_stopped send callback events middle stopped
            subst last
            refine ⟨_, quiet, ?_, ?_, ?_⟩
            · rw [sendPlan, sent, ok_bind]
              exact nothing
            · rw [fired]
              simp [stopped]
            · rw [fired]
              simp [playing]
          · rw [if_neg last] at goes
            obtain ⟨goesOn, playing, next⟩ := goes
            obtain ⟨ctx', later, played⟩ := ih rest last middle next goesOn
            refine ⟨ctx', later, ?_, ?_, ?_⟩
            · rw [sendPlan, sent, ok_bind]
              exact played.sent
            · rw [played.pending, fired, List.length_cons]
              simp only [Nat.add_lt_add_iff_right]
            · rw [played.streamsPlaying, fired, List.length_cons, playing]
              simp only [Nat.add_lt_add_iff_right]

end Compy.Rtp
