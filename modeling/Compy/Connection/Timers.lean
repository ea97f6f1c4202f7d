import Compy.Connection.Lifetimes

/-!
# Timers

TEARDOWN stops what has been played.  A timer that goes off finds what it needs as long as the
client is there; without it every player comes to a fault.
-/

set_option autoImplicit false

namespace Compy.Connection

open CheckedBytes Ownership
open Compy.Rtp (audioCount sendAudioPacketCb_returns)
open Compy.Nal (sendVideoPacketCb_returns)

/-! ## TEARDOWN -/

namespace Sound

variable {self : Server} {extra lost : List Nat}

theorem fewerPending (sound : Sound self extra lost) (kept : Nat × Timer → Bool) :
    Sound { self with pending := self.pending.filter kept } extra lost :=
  ⟨sound.ledger, sound.streams, sound.backchannel, sound.once,
    fun entry member => sound.pending entry (List.mem_filter.mp member).1,
    fun entry member => sound.events entry (List.mem_filter.mp member).1⟩

theorem eventDel {ev : Nat} (sound : Sound self extra lost) (known : ev ∈ self.owned ++ lost) :
    self.eventDel ev = .ok { self with pending := self.pending.filter fun entry => entry.1 != ev } := by
  rw [Server.eventDel, sound.touch (List.forall_mem_singleton.mpr known)]
  rfl

theorem ev_owned (sound : Sound self extra lost) {i : StreamId} {ev : Nat}
    (found : (self.stream i).ev = some ev) : ev ∈ self.owned := by
  rw [(sound.streams i).ev] at found
  obtain ⟨ctx, has, rfl⟩ := Option.map_eq_some_iff.mp found
  refine (self.owned_division i).symm.subset ?_
  simp [ClientStream.held, has, CtxPtr.cells]

theorem stops (sound : Sound self extra lost) (sessionId : UInt64) (ids : List StreamId)
    (ready : ∀ i ∈ ids, (self.stream i).sessionId = sessionId → (self.stream i).ev.isSome)
    (teardowned : Bool) : ∃ next teardowned',
      ids.foldlM (Server.teardownTurn sessionId) (self, teardowned) = .ok (next, teardowned') ∧
        Sound next extra lost := by
  induction ids generalizing self teardowned with
  | nil => exact ⟨self, teardowned, rfl, sound⟩
  | cons i ids ih =>
      obtain ⟨here, later⟩ := List.forall_mem_cons.mp ready
      rw [List.foldlM_cons, Server.teardownTurn]
      by_cases named : (self.stream i).sessionId = sessionId
      · obtain ⟨ev, found⟩ := Option.isSome_iff_exists.mp (here named)
        rw [if_pos named, Server.stopStream, found]
        dsimp only
        rw [sound.eventDel (List.mem_append_left _ (sound.ev_owned found))]
        exact ih (sound.fewerPending _) later true
      · rw [if_neg named]
        exact ih sound later teardowned

end Sound

theorem stops_fault (sessionId : UInt64) (ids : List StreamId) (server : Server)
    (cause : ∃ i ∈ ids, (server.stream i).sessionId = sessionId ∧ (server.stream i).ev = none)
    (teardowned : Bool) :
    ∃ fault, ids.foldlM (Server.teardownTurn sessionId) (server, teardowned) = .error fault := by
  induction ids generalizing server teardowned with
  | nil =>
      obtain ⟨i, none_, _⟩ := cause
      exact absurd none_ List.not_mem_nil
  | cons i ids ih =>
      obtain ⟨j, member, number, none_⟩ := cause
      rw [List.foldlM_cons, Server.teardownTurn]
      by_cases named : (server.stream i).sessionId = sessionId
      · rw [if_pos named, Server.stopStream]
        cases found : (server.stream i).ev with
        | none => exact ⟨_, rfl⟩
        | some ev =>
            dsimp only
            rw [Server.eventDel]
            cases server.touch [ev] with
            | error fault => exact ⟨fault, rfl⟩
            | ok done =>
                rcases List.mem_cons.mp member with rfl | later
                · rw [found] at none_
                  contradiction
                · exact ih { server with
                    pending := server.pending.filter fun entry => entry.1 != ev }
                    ⟨j, later, number, none_⟩ true
      · rw [if_neg named]
        rcases List.mem_cons.mp member with rfl | later
        · exact absurd number named
        · exact ih server ⟨j, later, number, none_⟩ teardowned

/-! ## While the client is there -/

section

variable (env : Environment) {now : Server} {rtp : RtpPtr} (ts : Compy.Rtp.RtpTimestamp)
  (marker : Bool) (header data : List UInt8)

theorem sendThrough_ok (reached : now.touch (rtp.cells ++ now.reach rtp.transport) = .ok ()) :
    Server.sendThrough env (some rtp) ts marker header data now =
      .ok ({ now with transmits := now.transmits + 1 }, env.transmit now.transmits) := by
  change (now.touch _ >>= fun _ => _) = _
  rw [reached]
  rfl

theorem sendThrough_error {fault : Fault}
    (missed : now.touch (rtp.cells ++ now.reach rtp.transport) = .error fault) :
    Server.sendThrough env (some rtp) ts marker header data now = .error fault := by
  change (now.touch _ >>= fun _ => _) = _
  rw [missed]
  rfl

end

/-- What the files have to be for the players to get through them. -/
structure Environment.Playable (env : Environment) : Prop where
  rate : env.media.fps ≠ 0
  units : env.media.Indexed
  samples : env.audio ≠ []

namespace Sound

variable {self : Server} {extra lost : List Nat}

theorem finish {ev : Nat} (sound : Sound self extra lost) (known : ev ∈ self.owned ++ lost)
    (streamsPlaying : Int) :
    ∃ next, self.finish ev streamsPlaying = .ok next ∧ Sound next extra lost := by
  have less := sound.fewerPending fun entry => entry.1 != ev
  have addr : self.client.addr ∈ self.owned := self.base_owned _ (by simp [Server.base])
  have alive : Server.touch { self with
      pending := self.pending.filter fun entry => entry.1 != ev } [self.client.addr] = .ok () :=
    less.touch (List.forall_mem_singleton.mpr (List.mem_append_left _ addr))
  have ran : self.finish ev streamsPlaying = .ok { self with
      pending := self.pending.filter fun entry => entry.1 != ev
      client := { self.client with streamsPlaying := streamsPlaying } } := by
    rw [Server.finish, sound.eventDel known]
    change (Server.touch _ _ >>= fun _ => _) = _
    rw [alive]
    rfl
  exact ⟨_, ran, less.ledger, less.streams, less.backchannel, less.once, less.pending, less.events⟩

/-- What is sent over TCP goes to the bufferevent, which lives as long as the connection. -/
theorem reach_known (sound : Sound self extra lost) {cells : List Nat}
    (known : ∀ addr ∈ cells, addr ∈ self.owned ++ lost) (transport : TransportPtr) :
    self.touch (cells ++ self.reach transport) = .ok () := by
  refine sound.touch fun addr member => ?_
  rcases List.mem_append.mp member with own | reached
  · exact known addr own
  · refine List.mem_append_left _ (self.base_owned addr ?_)
    rw [Server.reach] at reached
    split at reached
    · rw [List.mem_singleton.mp reached]
      simp [Server.base]
    · exact absurd reached List.not_mem_nil

variable (env : Environment) {faults : Prop} {ctx : CtxPtr}

def Sending (self : Server) (extra lost : List Nat) (now : Server) : Prop :=
  Sound now extra lost ∧ now.pending = self.pending

theorem sends {ev : Nat} (member : (ev, Timer.player ctx) ∈ self.pending) (ts : Compy.Rtp.RtpTimestamp)
    (marker : Bool) (header data : List UInt8) (now : Server) (sending : Sending self extra lost now) :
    Returns faults (fun sent => Sending self extra lost sent.1)
      (Server.sendThrough env ctx.rtp ts marker header data now) := by
  obtain ⟨sound, same⟩ := sending
  obtain ⟨_, cells, own⟩ := sound.pending _ (same ▸ member)
  obtain ⟨rtp, carries⟩ := Option.isSome_iff_exists.mp (own ctx rfl).2
  have known : ∀ addr ∈ rtp.cells ++ ctx.tail, addr ∈ now.owned ++ lost := by
    rwa [Timer.cells, carries] at cells
  have reached := sound.reach_known
    (fun addr among => known addr (List.mem_append_left _ among)) rtp.transport
  rw [carries, sendThrough_ok env ts marker header data reached]
  exact ⟨⟨sound.ledger, sound.streams, sound.backchannel, sound.once, sound.pending,
    sound.events⟩, same⟩

theorem Sending.ends {now : Server} (sending : Sending self extra lost now)
    (member : (ctx.ev, Timer.player ctx) ∈ self.pending) (audioAt : Nat → Nat)
    (videoAt : Nat → Compy.Nal.VideoPlace) (pending : Bool) (streamsPlaying : Int) :
    Returns faults (fun next => Sound next extra lost)
      (if pending then .ok { now with audioAt := audioAt, videoAt := videoAt }
        else Server.finish { now with audioAt := audioAt, videoAt := videoAt } ctx.ev
          streamsPlaying) := by
  obtain ⟨sound, same⟩ := sending
  have placed := sound.placed audioAt videoAt
  cases pending with
  | true => exact placed
  | false =>
      obtain ⟨event, _, _⟩ := sound.pending _ (same ▸ member)
      obtain ⟨next, ran, kept⟩ := placed.finish event streamsPlaying
      rw [if_neg Bool.false_ne_true, ran]
      exact kept

theorem fire_returns (sound : Sound self extra lost) {entry : Nat × Timer}
    (member : entry ∈ self.pending) (playable : env.Playable ∨ faults) :
    Returns faults (fun next => Sound next extra lost) (self.fire env entry.2) := by
  obtain ⟨event, cells, own⟩ := sound.pending entry member
  obtain ⟨ev, timer⟩ := entry
  cases timer with
  | senderReport rtcp =>
      have reached : self.sendRtcp rtcp = .ok () := sound.reach_known cells rtcp.transport
      rw [Server.fire, reached]
      exact sound
  | player ctx =>
      obtain rfl : ctx.ev = ev := (own ctx rfl).1
      have behind : self.touch ctx.tail = .ok () :=
        sound.touch fun addr among => cells addr (List.mem_append_right _ among)
      have each := @sends self extra lost env faults _ _ member
      have start : Sending self extra lost self := ⟨sound, rfl⟩
      rw [Server.fire]
      cases ctx with
      | audio addr ev transport =>
          rw [Server.playerPeriod, behind]
          exact (sendAudioPacketCb_returns each env.audio _ start).bind fun player sending =>
            sending.1.ends member _ _ _ _
      | video addr ev nal transport =>
          rw [Server.playerPeriod, behind]
          exact (sendVideoPacketCb_returns each env.media (playable.imp_left (·.units))
            (playable.imp_left (·.rate)) _ start).bind fun player sending =>
              sending.1.ends member _ _ _ _

end Sound

/-! ## Without the client -/

/-- How many periods a player may still have. -/
def remaining (env : Environment) (self : Server) : CtxPtr → Nat
  | .audio addr _ _ => audioCount env.audio - self.audioAt addr
  | .video addr _ _ _ => env.table.entries.length - (self.videoAt addr).nalIdx

/-- The player writes to the bufferevent. -/
def CtxPtr.Interleaved (ctx : CtxPtr) : Prop :=
  ∃ rtp, ctx.rtp = some rtp ∧ rtp.transport.interleaved = true

/-- What a player that has lost its client leaves as it was. -/
structure Adrift (ctx : CtxPtr) (before now : Server) : Prop where
  arena : now.arena = before.arena
  pending : now.pending = before.pending
  client : now.client = before.client
  silent : ctx.Interleaved → now.transmits = before.transmits

theorem Adrift.trans {ctx : CtxPtr} {before now later : Server} (first : Adrift ctx before now)
    (second : Adrift ctx now later) : Adrift ctx before later where
  arena := second.arena.trans first.arena
  pending := second.pending.trans first.pending
  client := second.client.trans first.client
  silent wired := (second.silent wired).trans (first.silent wired)

section

variable {env : Environment} {self : Server} {ctx : CtxPtr}

theorem finish_fault (gone : self.client.addr ∉ self.arena.live) (ev : Nat)
    (streamsPlaying : Int) : ∃ fault, self.finish ev streamsPlaying = .error fault := by
  rw [Server.finish, Server.eventDel]
  cases self.touch [ev] with
  | error fault => exact ⟨fault, rfl⟩
  | ok done =>
      have unreached : self.touch [self.client.addr] = .error .outOfBounds :=
        if_neg fun all => gone (List.forall_mem_singleton.mp all)
      exact ⟨.outOfBounds, congrArg (fun result : Access Unit => result >>= fun _ => _) unreached⟩

theorem adrift_sends (bev : self.client.bev ∉ self.arena.live) (ts : Compy.Rtp.RtpTimestamp)
    (marker : Bool) (header data : List UInt8) (now : Server) (adrift : Adrift ctx self now) :
    Returns True (fun sent => Adrift ctx self sent.1)
      (Server.sendThrough env ctx.rtp ts marker header data now) := by
  cases carries : ctx.rtp with
  | none => trivial
  | some rtp =>
      cases reached : now.touch (rtp.cells ++ now.reach rtp.transport) with
      | error fault =>
          rw [sendThrough_error env ts marker header data reached]
          trivial
      | ok done =>
          rw [sendThrough_ok env ts marker header data reached]
          refine ⟨adrift.arena, adrift.pending, adrift.client, fun ⟨other, same, wired⟩ =>
            absurd reached ?_⟩
          rw [carries] at same
          cases same
          have missed : ¬ ∀ addr ∈ rtp.cells ++ now.reach rtp.transport,
              addr ∈ now.arena.live := fun all => by
            refine bev ?_
            rw [← adrift.arena, ← adrift.client]
            refine all _ (List.mem_append_right _ ?_)
            rw [Server.reach, if_pos wired]
            exact List.mem_cons_self
          rw [Server.touch, Arena.touch, if_neg missed]
          exact fun same => by cases same

theorem Adrift.ends (gone : self.client.addr ∉ self.arena.live) {now : Server}
    (adrift : Adrift ctx self now) (audioAt : Nat → Nat)
    (videoAt : Nat → Compy.Nal.VideoPlace) (pending : Bool) (streamsPlaying : Int)
    (fewer : pending = true → remaining env { now with audioAt := audioAt, videoAt := videoAt } ctx <
      remaining env self ctx) :
    Returns True (fun next => Adrift ctx self next ∧ remaining env next ctx < remaining env self ctx)
      (if pending then .ok { now with audioAt := audioAt, videoAt := videoAt }
        else Server.finish { now with audioAt := audioAt, videoAt := videoAt } ctx.ev
          streamsPlaying) := by
  cases pending with
  | true => exact ⟨⟨adrift.arena, adrift.pending, adrift.client, adrift.silent⟩, fewer rfl⟩
  | false =>
      have orphaned : now.client.addr ∉ now.arena.live := by rwa [adrift.arena, adrift.client]
      obtain ⟨fault, ran⟩ := @finish_fault { now with audioAt := audioAt, videoAt := videoAt }
        orphaned ctx.ev streamsPlaying
      rw [if_neg Bool.false_ne_true, ran]
      trivial

/-- Every period of such a player brings it nearer to its end, or is a fault. -/
theorem playerPeriod_adrift (gone : self.client.addr ∉ self.arena.live)
    (bev : self.client.bev ∉ self.arena.live) : Returns True
      (fun next => Adrift ctx self next ∧ remaining env next ctx < remaining env self ctx)
      (self.playerPeriod env ctx) := by
  have each := @adrift_sends env self ctx bev
  have start : Adrift ctx self self := ⟨rfl, rfl, rfl, fun _ => rfl⟩
  cases ctx with
  | audio addr ev transport =>
      rw [Server.playerPeriod]
      cases self.touch (CtxPtr.audio addr ev transport).tail with
      | error fault => trivial
      | ok done =>
          refine (sendAudioPacketCb_returns each env.audio _ start).bind fun player sent =>
            sent.1.ends gone _ _ _ _ fun more => ?_
          obtain ⟨later, inside⟩ := sent.2 more
          rw [remaining, remaining]
          dsimp only at later inside ⊢
          rw [Function.update_self]
          omega
  | video addr ev nal transport =>
      rw [Server.playerPeriod]
      cases self.touch (CtxPtr.video addr ev nal transport).tail with
      | error fault => trivial
      | ok done =>
          refine (sendVideoPacketCb_returns each env.media (Or.inr trivial) (Or.inr trivial) _
            start).bind fun player sent => sent.1.ends gone _ _ _ _ fun more => ?_
          obtain ⟨later, inside⟩ := sent.2 more
          rw [remaining, remaining]
          dsimp only [Environment.media] at later inside ⊢
          rw [Function.update_self]
          omega

end

end Compy.Connection
