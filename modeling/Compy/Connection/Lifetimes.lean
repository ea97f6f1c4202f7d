import Mathlib.Data.List.Nodup
import Compy.Connection.Client

/-!
# What a client leaves behind

While a connection is open its client frees nothing that it has handed to anybody.  Of what is live
the client still has pointers to one part and will free it; the other part is lost.
-/

set_option autoImplicit false

namespace Compy.Connection

open CheckedBytes Interaction Ownership Compy.Rtsp

/-! ## Who owns what -/

def cellsOf {α : Type} (cells : α → List Nat) : Option α → List Nat
  | none => []
  | some ptr => cells ptr

@[simp] theorem cellsOf_none {α : Type} (cells : α → List Nat) : cellsOf cells none = [] := rfl

@[simp] theorem cellsOf_some {α : Type} (cells : α → List Nat) (ptr : α) :
    cellsOf cells (some ptr) = cells ptr := rfl

/-- What is freed with the context of a player. -/
def CtxPtr.cells (self : CtxPtr) : List Nat :=
  self.ev :: (cellsOf RtpPtr.cells self.rtp ++ self.tail)

def BackchannelPtr.cells (self : BackchannelPtr) : List Nat := [self.receiver, self.addr]

namespace ClientStream

/-- What is freed at the end of the connection. -/
def held (self : ClientStream) : List Nat :=
  self.rtcpEv.toList ++ cellsOf RtcpPtr.cells self.rtcp ++ cellsOf CtxPtr.cells self.ctx

/-- An RTP transport that no player has taken. -/
def waiting (self : ClientStream) : Option RtpPtr :=
  if self.ctx.bind CtxPtr.rtp = self.transport then none else self.transport

def idle (self : ClientStream) : List Nat := cellsOf RtpPtr.cells self.waiting

end ClientStream

namespace Server

/-- What has been allocated for the connection itself. -/
def base (self : Server) : List Nat := [self.ctx, self.client.addr, self.client.bev]

def owned (self : Server) : List Nat :=
  allStreams.flatMap (fun i => (self.stream i).held) ++
    (cellsOf BackchannelPtr.cells self.client.backchannel ++ (self.base ++
      allStreams.flatMap fun i => (self.stream i).idle))

theorem base_owned (self : Server) : ∀ addr ∈ self.base, addr ∈ self.owned := by
  intro addr member
  rw [owned, List.mem_append, List.mem_append, List.mem_append]
  exact Or.inr (Or.inr (Or.inl member))

end Server

def Timer.cells : Timer → List Nat
  | .player ctx => cellsOf RtpPtr.cells ctx.rtp ++ ctx.tail
  | .senderReport rtcp => rtcp.rtp.addr :: rtcp.cells

/-- Nothing has been set up or played again, and no transport has gone astray. -/
structure Once (log : List Deed) : Prop where
  stray : .stray ∉ log
  nodup : log.Nodup

theorem once_concat (log : List Deed) (deed : Deed) :
    Once (log ++ [deed]) ↔ Once log ∧ deed ≠ .stray ∧ deed ∉ log := by
  have nodup : (log ++ [deed]).Nodup ↔ log.Nodup ∧ deed ∉ log := by
    rw [← List.concat_eq_append, List.nodup_concat, and_comm]
  constructor
  · intro once
    obtain ⟨before, new⟩ := nodup.mp once.nodup
    refine ⟨⟨fun stray => once.stray (List.mem_append_left _ stray), before⟩, ?_, new⟩
    rintro rfl
    exact once.stray (List.mem_append_right _ List.mem_cons_self)
  · rintro ⟨once, other, new⟩
    refine ⟨fun stray => ?_, nodup.mpr ⟨once.nodup, new⟩⟩
    rcases List.mem_append.mp stray with before | here
    · exact once.stray before
    · exact other (List.mem_singleton.mp here).symm

/-- The stream as it is behind what has been done. -/
structure StreamSound (log : List Deed) (i : StreamId) (stream : ClientStream) : Prop where
  transport : stream.transport.isSome ↔ i ≠ .backchannel ∧ .setUp i ∈ log
  rtcp : stream.rtcp.map RtcpPtr.rtp = stream.transport
  ev : stream.ev = stream.ctx.map CtxPtr.ev
  reports : stream.rtcpEv.isSome → stream.rtcp.isSome
  played : stream.ctx.isSome ↔ .played i ∈ log
  carries : ∀ ctx, stream.ctx = some ctx → ctx.rtp.isSome ∧ stream.transport.isSome
  current : ∀ ctx, stream.ctx = some ctx → Once log → ctx.rtp = stream.transport

structure LogAbout (i : StreamId) (log log' : List Deed) : Prop where
  setUp : ∀ j, j ≠ i → (.setUp j ∈ log' ↔ .setUp j ∈ log)
  played : ∀ j, j ≠ i → (.played j ∈ log' ↔ .played j ∈ log)
  once : Once log' → Once log

theorem logAbout_same (i : StreamId) (log : List Deed) : LogAbout i log log :=
  ⟨fun _ _ => Iff.rfl, fun _ _ => Iff.rfl, id⟩

theorem logAbout_concat {i : StreamId} {deed : Deed} (about : deed = .setUp i ∨ deed = .played i)
    (log : List Deed) : LogAbout i log (log ++ [deed]) where
  setUp j other := by rcases about with rfl | rfl <;> simp [other]
  played j other := by rcases about with rfl | rfl <;> simp [other]
  once once := ((once_concat log deed).mp once).1

theorem StreamSound.later {log log' : List Deed} {i : StreamId} {stream : ClientStream}
    (sound : StreamSound log i stream) (setUp : Deed.setUp i ∈ log' ↔ Deed.setUp i ∈ log)
    (played : Deed.played i ∈ log' ↔ Deed.played i ∈ log) (once : Once log' → Once log) :
    StreamSound log' i stream where
  transport := by
    rw [setUp]
    exact sound.transport
  rtcp := sound.rtcp
  ev := sound.ev
  reports := sound.reports
  played := by
    rw [played]
    exact sound.played
  carries := sound.carries
  current ctx found again := sound.current ctx found (once again)

theorem StreamSound.renumbered {log : List Deed} {i : StreamId} {stream : ClientStream}
    (sound : StreamSound log i stream) (sessionId : UInt64) :
    StreamSound log i { stream with sessionId := sessionId } :=
  ⟨sound.transport, sound.rtcp, sound.ev, sound.reports, sound.played, sound.carries, sound.current⟩

theorem cellsOf_eq_nil {α : Type} {cells : α → List Nat} (some_ : ∀ ptr, cells ptr ≠ [])
    (ptr : Option α) : cellsOf cells ptr = [] ↔ ptr = none := by
  cases ptr with
  | none => exact iff_of_true rfl rfl
  | some ptr => exact iff_of_false (some_ ptr) (Option.some_ne_none ptr)

theorem RtcpPtr.cells_ne_nil (self : RtcpPtr) : self.cells ≠ [] :=
  List.append_ne_nil_of_right_ne_nil _ (List.cons_ne_nil _ _)

theorem BackchannelPtr.cells_ne_nil (self : BackchannelPtr) : self.cells ≠ [] :=
  List.cons_ne_nil _ _

theorem RtpPtr.cells_ne_nil (self : RtpPtr) : self.cells ≠ [] :=
  List.append_ne_nil_of_right_ne_nil _ (List.cons_ne_nil _ _)

namespace StreamSound

variable {log : List Deed} {i : StreamId} {stream : ClientStream} (sound : StreamSound log i stream)

include sound

theorem rtcp_none_iff : stream.rtcp = none ↔ stream.transport = none := by
  rw [← sound.rtcp, Option.map_eq_none_iff]

theorem new_iff (outbound : i ≠ .backchannel) : stream.transport = none ↔ .setUp i ∉ log := by
  rw [← Option.not_isSome_iff_eq_none, sound.transport, and_iff_right outbound]

end StreamSound

theorem ClientStream.idle_none {stream : ClientStream} (none_ : stream.transport = none) :
    stream.idle = [] := by
  rw [idle, waiting, none_, ite_self]
  rfl

theorem ClientStream.transport_known {stream : ClientStream} {rtp : RtpPtr}
    (found : stream.transport = some rtp) : ∀ addr ∈ rtp.cells, addr ∈ stream.held ++ stream.idle := by
  intro addr member
  rw [List.mem_append]
  by_cases carried : stream.ctx.bind CtxPtr.rtp = stream.transport
  · left
    rw [found] at carried
    obtain ⟨ctx, has, carries⟩ := Option.bind_eq_some_iff.mp carried
    rw [held, has, cellsOf_some, CtxPtr.cells, carries, cellsOf_some]
    exact List.mem_append_right _ (List.mem_cons_of_mem _ (List.mem_append_left _ member))
  · right
    rw [idle, waiting, if_neg carried, found]
    exact member

structure PendingSound (known : List Nat) (entry : Nat × Timer) : Prop where
  event : entry.1 ∈ known
  cells : ∀ addr ∈ entry.2.cells, addr ∈ known
  player : ∀ ctx, entry.2 = .player ctx → ctx.ev = entry.1 ∧ ctx.rtp.isSome

/-- What holds while the connection is open; `extra` has just been allocated. -/
structure Sound (server : Server) (extra lost : List Nat) : Prop where
  ledger : Ledger server.arena (extra ++ server.owned) lost
  streams : ∀ i, StreamSound server.log i (server.stream i)
  backchannel : server.client.backchannel.isSome ↔ .setUp .backchannel ∈ server.log
  once : lost = [] ↔ Once server.log
  pending : ∀ entry ∈ server.pending, PendingSound (server.owned ++ lost) entry
  events : ∀ entry ∈ server.pending, entry.1 ∈ lost ∨
    ∃ i, (server.stream i).ev = some entry.1 ∨ (server.stream i).rtcpEv = some entry.1

theorem accept_sound : Sound .accept [] [] where
  ledger := Ledger.new.alloc.alloc.alloc
  streams i := {
    transport := by simp [Server.accept, Server.stream]
    rtcp := rfl
    ev := rfl
    reports := fun none => absurd none Bool.false_ne_true
    played := by simp [Server.accept, Server.stream]
    carries := fun _ none => absurd none.symm (Option.some_ne_none _)
    current := fun _ none _ => absurd none.symm (Option.some_ne_none _) }
  backchannel := by simp [Server.accept]
  once := iff_of_true rfl ⟨List.not_mem_nil, List.nodup_nil⟩
  pending _ none := absurd none List.not_mem_nil
  events _ none := absurd none List.not_mem_nil

namespace Sound

variable {self : Server} {extra lost : List Nat}

theorem alloc (sound : Sound self extra lost) :
    Sound self.alloc.2 (self.alloc.1 :: extra) lost :=
  ⟨sound.ledger.alloc, sound.streams, sound.backchannel, sound.once, sound.pending, sound.events⟩

theorem freeAll {addrs : List Nat} (sound : Sound self (addrs ++ extra) lost) :
    ∃ next, self.freeAll addrs = .ok next ∧ Sound next extra lost := by
  have ledger := sound.ledger
  rw [List.append_assoc] at ledger
  obtain ⟨arena, freed, left⟩ := ledger.freeAll
  refine ⟨{ self with arena := arena }, ?_, left, sound.streams, sound.backchannel, sound.once,
    sound.pending, sound.events⟩
  rw [Server.freeAll, freed]
  rfl

theorem reorder {extra' : List Nat} (sound : Sound self extra lost) (same : extra.Perm extra') :
    Sound self extra' lost :=
  ⟨sound.ledger.divide ((same.append_right _).append_right _), sound.streams, sound.backchannel,
    sound.once, sound.pending, sound.events⟩

theorem placed (sound : Sound self extra lost) (audioAt : Nat → Nat)
    (videoAt : Nat → Compy.Nal.VideoPlace) :
    Sound { self with audioAt := audioAt, videoAt := videoAt } extra lost :=
  ⟨sound.ledger, sound.streams, sound.backchannel, sound.once, sound.pending, sound.events⟩

theorem touch {addrs : List Nat} (sound : Sound self extra lost)
    (known : ∀ addr ∈ addrs, addr ∈ self.owned ++ lost) : self.touch addrs = .ok () := by
  refine Arena.touch_ok fun addr member => (sound.ledger.mem_live addr).mpr ?_
  rcases List.mem_append.mp (known addr member) with owned | left
  · exact Or.inl (List.mem_append_right _ owned)
  · exact Or.inr left

end Sound

/-! ## A change to one stream -/

namespace Server

def besides (self : Server) (i : StreamId) : List Nat :=
  cellsOf BackchannelPtr.cells self.client.backchannel ++ (self.base ++
    (allStreams.filter (· != i)).flatMap fun j => (self.stream j).held ++ (self.stream j).idle)

theorem owned_division (self : Server) (i : StreamId) : self.owned.Perm
    ((self.stream i).held ++ (self.stream i).idle ++ self.besides i) := by
  rw [List.perm_iff_count]
  intro addr
  cases i <;> simp [owned, besides, allStreams, List.count_append] <;> omega

end Server

/-- The servers differ in one stream and in timers and deeds for it. -/
structure Updated (server next : Server) (i : StreamId) (stream : ClientStream)
    (entries : List (Nat × Timer)) : Prop where
  arena : next.arena = server.arena
  pending : next.pending = entries ++ server.pending
  base : next.base = server.base
  backchannel : next.client.backchannel = server.client.backchannel
  streams : ∀ j, next.stream j = if j = i then stream else server.stream j
  log : LogAbout i server.log next.log

namespace Updated

variable {self next : Server} {i : StreamId} {stream : ClientStream}
  {entries : List (Nat × Timer)} (updated : Updated self next i stream entries)

include updated

theorem here : next.stream i = stream := by
  rw [updated.streams, if_pos rfl]

theorem besides : next.besides i = self.besides i := by
  have other (j : StreamId) (member : j ∈ allStreams.filter (· != i)) :
      (next.stream j).held ++ (next.stream j).idle = (self.stream j).held ++ (self.stream j).idle := by
    rw [updated.streams, if_neg (by simpa using (List.mem_filter.mp member).2)]
  rw [Server.besides, Server.besides, updated.base, updated.backchannel]
  congr 2
  exact List.flatMap_congr other

end Updated

namespace Sound

variable {self next : Server} {i : StreamId} {stream : ClientStream}
  {entries : List (Nat × Timer)} {extra lost lost' : List Nat}

theorem update (sound : Sound self extra lost) (updated : Updated self next i stream entries)
    (outbound : i ≠ .backchannel)
    (division : (extra ++ ((self.stream i).held ++ (self.stream i).idle) ++ lost).Perm
      (stream.held ++ stream.idle ++ lost'))
    (kept : ∀ addr ∈ lost, addr ∈ lost') (streamSound : StreamSound next.log i stream)
    (once : lost' = [] ↔ Once next.log)
    (fresh : ∀ entry ∈ entries, PendingSound (stream.held ++ stream.idle ++ lost') entry ∧
      (stream.ev = some entry.1 ∨ stream.rtcpEv = some entry.1))
    (before : ∀ ev, (self.stream i).ev = some ev ∨ (self.stream i).rtcpEv = some ev →
      ev ∈ lost' ∨ stream.ev = some ev ∨ stream.rtcpEv = some ev) : Sound next [] lost' := by
  have owned := self.owned_division i
  have owned' := next.owned_division i
  rw [updated.here, updated.besides] at owned'
  have whole : (extra ++ self.owned ++ lost).Perm (next.owned ++ lost') := by
    rw [List.perm_iff_count] at owned owned' division ⊢
    intro addr
    have one := owned addr
    have two := owned' addr
    have three := division addr
    simp only [List.count_append] at one two three ⊢
    omega
  have known : ∀ addr ∈ self.owned ++ lost, addr ∈ next.owned ++ lost' := fun addr member =>
    whole.subset (by
      rw [List.append_assoc]
      exact List.mem_append_right _ member)
  refine ⟨?_, fun j => ?_, ?_, once, fun entry member => ?_, fun entry member => ?_⟩
  · rw [updated.arena]
    exact sound.ledger.divide whole
  · rw [updated.streams]
    split
    · rename_i same
      rw [same]
      exact streamSound
    · rename_i other
      exact (sound.streams j).later (updated.log.setUp j other) (updated.log.played j other)
        updated.log.once
  · rw [updated.backchannel, updated.log.setUp _ (Ne.symm outbound)]
    exact sound.backchannel
  · rw [updated.pending] at member
    rcases List.mem_append.mp member with new | old
    · obtain ⟨⟨event, cells, player⟩, _⟩ := fresh entry new
      have here : ∀ addr ∈ stream.held ++ stream.idle ++ lost', addr ∈ next.owned ++ lost' := by
        intro addr member
        rcases List.mem_append.mp member with own | left
        · exact List.mem_append_left _ (owned'.symm.subset (List.mem_append_left _ own))
        · exact List.mem_append_right _ left
      exact ⟨here _ event, fun addr among => here _ (cells addr among), player⟩
    · obtain ⟨event, cells, player⟩ := sound.pending entry old
      exact ⟨known _ event, fun addr among => known _ (cells addr among), player⟩
  · rw [updated.pending] at member
    rcases List.mem_append.mp member with new | old
    · right
      refine ⟨i, ?_⟩
      rw [updated.here]
      exact (fresh entry new).2
    · rcases sound.events entry old with left | ⟨j, own⟩
      · exact Or.inl (kept _ left)
      · by_cases same : j = i
        · subst same
          rcases before _ own with left | still
          · exact Or.inl left
          · refine Or.inr ⟨j, ?_⟩
            rw [updated.here]
            exact still
        · refine Or.inr ⟨j, ?_⟩
          rw [updated.streams, if_neg same]
          exact own

/-! ## SETUP -/

theorem carried_known (sound : Sound self extra lost) {ctx : CtxPtr} {rtp : RtpPtr}
    (found : (self.stream i).ctx = some ctx) (carried : ctx.rtp = some rtp) :
    rtp.addr ∈ self.arena.live := by
  refine (sound.ledger.mem_live _).mpr (Or.inl (List.mem_append_right _ ?_))
  refine (self.owned_division i).symm.subset ?_
  simp [ClientStream.held, found, CtxPtr.cells, carried, RtpPtr.cells]

theorem setUp_division (rtp rtcp : Nat) (t rtcpT ev old ctx idle lost : List Nat) :
    ((rtcp :: rtp :: (t ++ rtcpT)) ++ ((ev ++ old ++ ctx) ++ idle) ++ lost).Perm
      ((ev ++ (rtcpT ++ [rtcp]) ++ ctx) ++ (t ++ [rtp]) ++ (old ++ idle ++ lost)) := by
  rw [List.perm_iff_count]
  intro addr
  simp only [List.count_append, List.count_cons, List.count_nil]
  omega

def setUpStream (stream : ClientStream) (sessionId : UInt64) (t rtcpT : TransportPtr) (addr : Nat) :
    ClientStream :=
  { stream with
    sessionId := sessionId
    transport := some ⟨addr, t⟩
    rtcp := some ⟨addr + 1, ⟨addr, t⟩, rtcpT⟩ }

theorem setupStream {t rtcpT : TransportPtr} (sound : Sound self (t.cells ++ rtcpT.cells) lost)
    (outbound : i ≠ .backchannel) (sessionId : UInt64) : ∃ lost',
      Sound ((self.setupStream i sessionId t rtcpT).logged (.setUp i)) [] lost' := by
  have before := sound.streams i
  have log : ((self.setupStream i sessionId t rtcpT).logged (.setUp i)).log =
      self.log ++ [.setUp i] := rfl
  have fresh (ctx : CtxPtr) (found : (self.stream i).ctx = some ctx) :
      ctx.rtp ≠ some ⟨self.arena.next, t⟩ := fun same =>
    sound.ledger.fresh (sound.carried_known found same)
  have updated : Updated self.alloc.2.alloc.2
      ((self.setupStream i sessionId t rtcpT).logged (.setUp i)) i
      (setUpStream (self.stream i) sessionId t rtcpT self.arena.next) [] := {
    arena := rfl
    pending := rfl
    base := rfl
    backchannel := rfl
    streams := fun j => rfl
    log := logAbout_concat (Or.inl rfl) self.log }
  have idle : (setUpStream (self.stream i) sessionId t rtcpT self.arena.next).idle =
      t.cells ++ [self.arena.next] := by
    rw [ClientStream.idle, ClientStream.waiting, if_neg]
    · rfl
    · intro same
      obtain ⟨ctx, found, carried⟩ := Option.bind_eq_some_iff.mp same
      exact fresh ctx found carried
  refine ⟨cellsOf RtcpPtr.cells (self.stream i).rtcp ++ (self.stream i).idle ++ lost,
    sound.alloc.alloc.update updated outbound ?_ ?_ ?_ ?_ ?_ ?_⟩
  · rw [idle]
    exact setUp_division _ _ t.cells rtcpT.cells (self.stream i).rtcpEv.toList _ _ _ lost
  · exact fun addr member => List.mem_append_right _ member
  · rw [log]
    exact {
      transport := by simp [setUpStream, outbound]
      rtcp := rfl
      ev := before.ev
      reports := fun _ => rfl
      played := by
        rw [List.mem_append, or_iff_left (by simp)]
        exact before.played
      carries := fun ctx found => ⟨(before.carries ctx found).1, rfl⟩
      current := fun ctx found once => by
        have already := before.transport.mp (before.carries ctx found).2
        exact absurd already.2 ((once_concat _ _).mp once).2.2 }
  · rw [log, once_concat, ← sound.once, ← before.new_iff outbound, List.append_eq_nil_iff,
      List.append_eq_nil_iff, cellsOf_eq_nil RtcpPtr.cells_ne_nil, before.rtcp_none_iff]
    constructor
    · rintro ⟨⟨new, _⟩, kept⟩
      exact ⟨kept, Deed.noConfusion, new⟩
    · rintro ⟨kept, _, new⟩
      exact ⟨⟨new, ClientStream.idle_none new⟩, kept⟩
  · exact fun entry none => absurd none List.not_mem_nil
  · exact fun ev own => Or.inr own

theorem stray (sound : Sound self extra lost) (some_ : extra ≠ []) :
    Sound (self.logged .stray) [] (extra ++ lost) where
  ledger := by
    refine sound.ledger.divide ?_
    rw [List.append_assoc]
    exact List.perm_append_comm_assoc extra self.owned lost
  streams i := (sound.streams i).later (by simp [Server.logged]) (by simp [Server.logged])
    fun once => ((once_concat _ _).mp once).1
  backchannel := by
    rw [Server.logged, List.mem_append, or_iff_left (by simp)]
    exact sound.backchannel
  once := by
    rw [Server.logged, once_concat]
    exact iff_of_false (fun none => some_ (List.append_eq_nil_iff.mp none).1) fun once =>
      once.2.1 rfl
  pending entry member := by
    obtain ⟨event, cells, player⟩ := sound.pending entry member
    have known : ∀ addr ∈ self.owned ++ lost, addr ∈ self.owned ++ (extra ++ lost) := by
      intro addr among
      rw [List.mem_append] at among ⊢
      exact among.imp_right (List.mem_append_right _)
    exact ⟨known _ event, fun addr among => known _ (cells addr among), player⟩
  events entry member :=
    (sound.events entry member).imp_left (List.mem_append_right _)

end Sound

theorem map_eq_ok {ε α β : Type} {f : α → β} {result : Except ε α} {value : β}
    (mapped : result.map f = .ok value) : ∃ before, result = .ok before ∧ value = f before := by
  cases result with
  | error fault => cases mapped
  | ok before =>
      cases mapped
      exact ⟨before, rfl, rfl⟩

theorem logged_freeAll (self : Server) (deed : Deed) (addrs : List Nat) :
    (self.logged deed).freeAll addrs = (self.freeAll addrs).map (·.logged deed) := by
  rw [Server.freeAll, Server.freeAll, Server.logged]
  cases self.arena.freeAll addrs <;> rfl

namespace Sound

variable {self next : Server} {i : StreamId} {stream : ClientStream}
  {entries : List (Nat × Timer)} {extra lost lost' : List Nat}

theorem backchannel_division (addr receiver : Nat) (extra streams old rest lost : List Nat) :
    ((receiver :: addr :: extra) ++ (streams ++ (old ++ rest)) ++ lost).Perm
      (extra ++ (streams ++ ([receiver, addr] ++ rest)) ++ (old ++ lost)) := by
  rw [List.perm_iff_count]
  intro other
  simp only [List.count_append, List.count_cons, List.count_nil]
  omega

theorem backchannel_transport (sound : Sound self extra lost) :
    (self.stream .backchannel).transport = none := by
  rw [← Option.not_isSome_iff_eq_none, (sound.streams .backchannel).transport]
  exact fun both => both.1 rfl

theorem withReceiver_stream (sound : Sound self extra lost) (sessionId : UInt64) (j : StreamId) :
    ∃ number, (self.withReceiver sessionId).stream j =
      { self.stream j with sessionId := number } := by
  cases j
  · exact ⟨_, rfl⟩
  · exact ⟨_, rfl⟩
  · refine ⟨sessionId, ?_⟩
    change ({ self.stream .backchannel with sessionId := sessionId, transport := none } :
      ClientStream) = _
    rw [← sound.backchannel_transport]

theorem withReceiver_owned (sound : Sound self extra lost) (sessionId : UInt64) :
    ((self.withReceiver sessionId).logged (.setUp .backchannel)).owned =
      allStreams.flatMap (fun j => (self.stream j).held) ++
        ([self.arena.next + 1, self.arena.next] ++ (self.base ++
          allStreams.flatMap fun j => (self.stream j).idle)) := by
  have held : allStreams.flatMap (fun j => ((self.withReceiver sessionId).stream j).held) =
      allStreams.flatMap fun j => (self.stream j).held := by
    refine List.flatMap_congr fun j _ => ?_
    obtain ⟨number, changed⟩ := sound.withReceiver_stream sessionId j
    rw [changed]
    rfl
  have idle : allStreams.flatMap (fun j => ((self.withReceiver sessionId).stream j).idle) =
      allStreams.flatMap fun j => (self.stream j).idle := by
    refine List.flatMap_congr fun j _ => ?_
    obtain ⟨number, changed⟩ := sound.withReceiver_stream sessionId j
    rw [changed]
    rfl
  rw [← held, ← idle]
  rfl

theorem setUp_backchannel (sound : Sound self extra lost) (j : StreamId) :
    StreamSound (self.log ++ [.setUp .backchannel]) j (self.stream j) := by
  by_cases other : j = .backchannel
  · subst other
    have before := sound.streams .backchannel
    exact {
      transport := by rw [sound.backchannel_transport]; simp
      rtcp := before.rtcp
      ev := before.ev
      reports := before.reports
      played := by
        rw [List.mem_append, or_iff_left (by simp)]
        exact before.played
      carries := before.carries
      current := fun ctx found once => before.current ctx found ((once_concat _ _).mp once).1 }
  · have about := @logAbout_concat .backchannel _ (Or.inl rfl) self.log
    exact (sound.streams j).later (about.setUp j other) (about.played j other) about.once

theorem withReceiver (sound : Sound self extra lost) (sessionId : UInt64) : ∃ lost',
    Sound ((self.withReceiver sessionId).logged (.setUp .backchannel)) extra lost' := by
  have owned := sound.withReceiver_owned sessionId
  have whole := backchannel_division self.arena.next (self.arena.next + 1) extra
    (allStreams.flatMap fun j => (self.stream j).held)
    (cellsOf BackchannelPtr.cells self.client.backchannel)
    (self.base ++ allStreams.flatMap fun j => (self.stream j).idle) lost
  refine ⟨cellsOf BackchannelPtr.cells self.client.backchannel ++ lost, ?_, fun j => ?_, ?_, ?_,
    fun entry member => ?_, fun entry member => ?_⟩
  · rw [owned]
    exact sound.ledger.alloc.alloc.divide whole
  · obtain ⟨number, changed⟩ := sound.withReceiver_stream sessionId j
    change StreamSound (self.log ++ [.setUp .backchannel]) j ((self.withReceiver sessionId).stream j)
    rw [changed]
    exact (sound.setUp_backchannel j).renumbered number
  · exact iff_of_true rfl (List.mem_append_right _ List.mem_cons_self)
  · change _ ↔ Once (self.log ++ [.setUp .backchannel])
    rw [once_concat, ← sound.once, ← sound.backchannel, List.append_eq_nil_iff,
      cellsOf_eq_nil BackchannelPtr.cells_ne_nil, Option.not_isSome_iff_eq_none]
    constructor
    · rintro ⟨new, kept⟩
      exact ⟨kept, Deed.noConfusion, new⟩
    · rintro ⟨kept, _, new⟩
      exact ⟨new, kept⟩
  · obtain ⟨event, cells, player⟩ := sound.pending entry member
    have known : ∀ addr ∈ self.owned ++ lost, addr ∈
        ((self.withReceiver sessionId).logged (.setUp .backchannel)).owned ++
          (cellsOf BackchannelPtr.cells self.client.backchannel ++ lost) := by
      intro addr among
      rw [owned]
      simp only [Server.owned, List.mem_append] at among ⊢
      rcases among with (streams | old | base | idles) | left
      · exact Or.inl (Or.inl streams)
      · exact Or.inr (Or.inl old)
      · exact Or.inl (Or.inr (Or.inr (Or.inl base)))
      · exact Or.inl (Or.inr (Or.inr (Or.inr idles)))
      · exact Or.inr (Or.inr left)
    exact ⟨known _ event, fun addr among => known _ (cells addr among), player⟩
  · rcases sound.events entry member with left | ⟨j, own⟩
    · exact Or.inl (List.mem_append_right _ left)
    · refine Or.inr ⟨j, ?_⟩
      obtain ⟨number, changed⟩ := sound.withReceiver_stream sessionId j
      change ((self.withReceiver sessionId).stream j).ev = _ ∨
        ((self.withReceiver sessionId).stream j).rtcpEv = _
      rw [changed]
      exact own

theorem setupBackchannel {t rtcpT : TransportPtr} (sound : Sound self (t.cells ++ rtcpT.cells) lost)
    (sessionId : UInt64) : ∃ next lost', self.setupBackchannel sessionId t rtcpT = .ok next ∧
      Sound (next.logged (.setUp .backchannel)) [] lost' := by
  obtain ⟨lost', received⟩ := sound.withReceiver sessionId
  have reordered : Sound _ (rtcpT.cells ++ (t.cells ++ [])) lost' := received.reorder (by
    rw [List.append_nil]
    exact List.perm_append_comm)
  obtain ⟨middle, first, later⟩ := reordered.freeAll
  rw [logged_freeAll] at first
  obtain ⟨freed, one, rfl⟩ := map_eq_ok first
  obtain ⟨last, second, done⟩ := later.freeAll
  rw [logged_freeAll] at second
  obtain ⟨next, two, rfl⟩ := map_eq_ok second
  refine ⟨next, lost', ?_, done⟩
  rw [Server.setupBackchannel, one]
  exact two

theorem setupAt {t rtcpT : TransportPtr} (sound : Sound self (t.cells ++ rtcpT.cells) lost) (i : StreamId)
    (sessionId : UInt64) : ∃ next lost', self.setupAt i sessionId t rtcpT = .ok next ∧
      Sound (next.logged (.setUp i)) [] lost' := by
  cases i with
  | audio =>
      obtain ⟨lost', done⟩ := sound.setupStream (i := .audio) (by decide) sessionId
      exact ⟨_, lost', rfl, done⟩
  | video =>
      obtain ⟨lost', done⟩ := sound.setupStream (i := .video) (by decide) sessionId
      exact ⟨_, lost', rfl, done⟩
  | backchannel => exact sound.setupBackchannel sessionId

/-! ## PLAY -/

/-- What is lost of a player when another one takes its place with the transport. -/
def replaced (stream : ClientStream) : List Nat :=
  match stream.ctx with
  | none => []
  | some ctx => if ctx.rtp = stream.transport then ctx.ev :: ctx.tail else ctx.cells

theorem replaced_nil_iff (stream : ClientStream) : replaced stream = [] ↔ stream.ctx = none := by
  rw [replaced]
  cases stream.ctx with
  | none => exact iff_of_true rfl rfl
  | some ctx =>
      dsimp only
      split <;> exact iff_of_false (List.cons_ne_nil _ _) (Option.some_ne_none _)

theorem started_division {stream : ClientStream} {ctx : CtxPtr} {rtp : RtpPtr}
    (found : stream.transport = some rtp) (carries : ctx.rtp = stream.transport)
    (lost : List Nat) :
    ((ctx.ev :: ctx.tail) ++ (stream.held ++ stream.idle) ++ lost).Perm
      (({ stream with ev := some ctx.ev, ctx := some ctx } : ClientStream).held ++
        ({ stream with ev := some ctx.ev, ctx := some ctx } : ClientStream).idle ++
          (replaced stream ++ lost)) := by
  have idle : ({ stream with ev := some ctx.ev, ctx := some ctx } : ClientStream).idle = [] := by
    rw [ClientStream.idle, ClientStream.waiting, if_pos]
    · rfl
    · exact carries
  rw [idle, List.perm_iff_count]
  intro addr
  obtain ⟨sessionId, transport, rtcp, ev, rtcpEv, old⟩ := stream
  dsimp only at found carries
  rw [found] at carries
  cases old with
  | none =>
      simp only [ClientStream.held, ClientStream.idle, ClientStream.waiting, replaced, found,
        CtxPtr.cells, carries, Option.bind_none, reduceCtorEq, if_false, cellsOf_some, cellsOf_none,
        List.count_append, List.count_cons, List.count_nil]
      omega
  | some old =>
      by_cases same : old.rtp = some rtp
      · simp only [ClientStream.held, ClientStream.idle, ClientStream.waiting, replaced, found,
          CtxPtr.cells, carries, same, Option.bind_some, if_true, cellsOf_some, cellsOf_none,
          List.count_append, List.count_cons, List.count_nil]
        omega
      · simp only [ClientStream.held, ClientStream.idle, ClientStream.waiting, replaced, found,
          CtxPtr.cells, carries, same, Option.bind_some, if_false, cellsOf_some,
          List.count_append, List.count_cons, List.count_nil]
        omega

theorem started {ctx : CtxPtr} (sound : Sound self (ctx.ev :: ctx.tail) lost)
    (outbound : i ≠ .backchannel) {rtp : RtpPtr} (found : (self.stream i).transport = some rtp)
    (carries : ctx.rtp = (self.stream i).transport) :
    ∃ lost', Sound ((self.started i ctx).logged (.played i)) [] lost' := by
  have before := sound.streams i
  have log : ((self.started i ctx).logged (.played i)).log = self.log ++ [.played i] := rfl
  have updated : Updated self ((self.started i ctx).logged (.played i)) i
      { self.stream i with ev := some ctx.ev, ctx := some ctx } [(ctx.ev, .player ctx)] := {
    arena := rfl
    pending := rfl
    base := rfl
    backchannel := rfl
    streams := fun j => rfl
    log := logAbout_concat (Or.inr rfl) self.log }
  refine ⟨replaced (self.stream i) ++ lost, sound.update updated outbound
    (started_division found carries lost) ?_ ?_ ?_ ?_ ?_⟩
  · exact fun addr member => List.mem_append_right _ member
  · rw [log]
    exact {
      transport := by
        rw [List.mem_append, or_iff_left (by simp)]
        exact before.transport
      rtcp := before.rtcp
      ev := rfl
      reports := before.reports
      played := iff_of_true rfl (List.mem_append_right _ List.mem_cons_self)
      carries := fun other same => by
        cases same
        rw [carries, found]
        exact ⟨rfl, rfl⟩
      current := fun other same _ => by
        cases same
        exact carries }
  · rw [log, once_concat, ← sound.once, ← before.played, List.append_eq_nil_iff, replaced_nil_iff,
      Option.not_isSome_iff_eq_none]
    constructor
    · rintro ⟨new, kept⟩
      exact ⟨kept, Deed.noConfusion, new⟩
    · rintro ⟨kept, _, new⟩
      exact ⟨new, kept⟩
  · intro entry member
    rw [List.mem_singleton.mp member]
    have own : ∀ addr ∈ ctx.cells, addr ∈
        ({ self.stream i with ev := some ctx.ev, ctx := some ctx } : ClientStream).held ++
          ({ self.stream i with ev := some ctx.ev, ctx := some ctx } : ClientStream).idle ++
            (replaced (self.stream i) ++ lost) := fun addr among =>
      List.mem_append_left _ (List.mem_append_left _ (List.mem_append_right _ among))
    refine ⟨⟨own _ List.mem_cons_self, fun addr among => own _ (List.mem_cons_of_mem _ among), ?_⟩,
      Or.inl rfl⟩
    intro other same
    cases same
    rw [carries, found]
    exact ⟨rfl, rfl⟩
  · rintro ev (own | reports)
    · left
      rw [before.ev] at own
      obtain ⟨old, has, rfl⟩ := Option.map_eq_some_iff.mp own
      rw [replaced, has]
      dsimp only
      split <;> exact List.mem_cons_self
    · exact Or.inr (Or.inr reports)

theorem reports_division {stream : ClientStream} (none_ : stream.rtcpEv = none) (ev : Nat)
    (lost : List Nat) : ([ev] ++ (stream.held ++ stream.idle) ++ lost).Perm
      (({ stream with rtcpEv := some ev } : ClientStream).held ++
        ({ stream with rtcpEv := some ev } : ClientStream).idle ++ lost) := by
  obtain ⟨sessionId, transport, rtcp, player, rtcpEv, ctx⟩ := stream
  cases none_
  exact .rfl

theorem startReports (sound : Sound self [] lost) (outbound : i ≠ .backchannel) :
    Sound (self.startReports i) [] lost := by
  rw [Server.startReports]
  split
  · rename_i rtcp has none_
    have before := sound.streams i
    have transport : (self.stream i).transport = some rtcp.rtp := by
      rw [← before.rtcp, has]
      rfl
    have updated : Updated self.alloc.2
        (({ self with arena := self.arena.alloc.2 }.setStream i
          { self.stream i with rtcpEv := some self.arena.next }).eventAdd self.arena.next
            (.senderReport rtcp)) i { self.stream i with rtcpEv := some self.arena.next }
        [(self.arena.next, .senderReport rtcp)] := {
      arena := rfl
      pending := rfl
      base := rfl
      backchannel := rfl
      streams := fun j => rfl
      log := logAbout_same i self.log }
    refine sound.alloc.update updated outbound (reports_division none_ self.arena.next lost)
      (fun addr member => member) ?_ sound.once ?_ ?_
    · exact {
        transport := before.transport
        rtcp := before.rtcp
        ev := before.ev
        reports := fun _ => by
          rw [has]
          rfl
        played := before.played
        carries := before.carries
        current := before.current }
    · intro entry member
      rw [List.mem_singleton.mp member]
      refine ⟨⟨?_, fun addr among => ?_, fun _ same => Timer.noConfusion same⟩, Or.inr rfl⟩
      · simp [ClientStream.held]
      · refine List.mem_append_left _ ?_
        rcases List.mem_cons.mp among with rfl | own
        · have known : ({ self.stream i with rtcpEv := some self.arena.next } :
              ClientStream).transport = some rtcp.rtp := transport
          exact ClientStream.transport_known known _ (List.mem_append_right _ List.mem_cons_self)
        · refine List.mem_append_left _ (List.mem_append_left _ (List.mem_append_right _ ?_))
          rw [has]
          exact own
    · rintro ev (own | reports)
      · exact Or.inr (Or.inl own)
      · rw [show self.alloc.2.stream i = self.stream i from rfl, none_] at reports
        contradiction
  · exact sound

theorem logged_startReports (self : Server) (i : StreamId) (deed : Deed) :
    (self.startReports i).logged deed = (self.logged deed).startReports i := by
  rw [Server.startReports, Server.startReports, show (self.logged deed).stream i = self.stream i
    from rfl]
  split <;> rfl

theorem playStream (env : Environment) (sound : Sound self [] lost) (outbound : i ≠ .backchannel)
    (ready : (self.stream i).transport.isSome) :
    ∃ next lost', self.playStream env i = .ok next ∧ Sound next [] lost' := by
  obtain ⟨rtp, found⟩ := Option.isSome_iff_exists.mp ready
  rw [Server.playStream]
  by_cases audio : i = .audio
  · rw [if_pos audio]
    have made : Sound self.alloc.2.alloc.2
        [self.arena.next + 1, self.arena.next] lost := sound.alloc.alloc
    have placed := made.placed (Function.update self.audioAt self.arena.next 0) self.videoAt
    obtain ⟨lost', played⟩ := @started _ i _ (CtxPtr.audio self.arena.next (self.arena.next + 1)
      (self.stream i).transport) placed outbound rtp found rfl
    refine ⟨_, lost', rfl, ?_⟩
    rw [logged_startReports]
    exact played.startReports outbound
  · rw [if_neg audio, Server.playVideo, found]
    have made : Sound self.alloc.2.alloc.2.alloc.2
        [self.arena.next + 2, self.arena.next + 1, self.arena.next] lost := sound.alloc.alloc.alloc
    have placed := made.placed self.audioAt
      (Function.update self.videoAt self.arena.next ⟨0, env.table.startIdx⟩)
    obtain ⟨lost', played⟩ := @started _ i _ (CtxPtr.video self.arena.next (self.arena.next + 2)
      (self.arena.next + 1) rtp) placed outbound rtp found found.symm
    refine ⟨_, lost', rfl, ?_⟩
    rw [logged_startReports]
    exact played.startReports outbound

end Sound

def Keeps (server next : Server) : Prop :=
  ∀ i, (next.stream i).sessionId = (server.stream i).sessionId ∧
    (next.stream i).transport = (server.stream i).transport

theorem keeps_setStream (server : Server) (i : StreamId) {stream : ClientStream}
    (sessionId : stream.sessionId = (server.stream i).sessionId)
    (transport : stream.transport = (server.stream i).transport) :
    Keeps server (server.setStream i stream) := by
  intro j
  rw [show (server.setStream i stream).stream j = if j = i then stream else server.stream j from rfl]
  split
  · rename_i same
    rw [same]
    exact ⟨sessionId, transport⟩
  · exact ⟨rfl, rfl⟩

theorem startReports_keeps (server : Server) (i : StreamId) : Keeps server (server.startReports i) := by
  rw [Server.startReports]
  split
  · exact keeps_setStream server i rfl rfl
  · exact fun _ => ⟨rfl, rfl⟩

theorem playStream_keeps {env : Environment} {server next : Server} {i : StreamId}
    (played : server.playStream env i = .ok next) : Keeps server next := by
  have started (middle : Server) (ctx : CtxPtr) (same : Keeps server middle) :
      Keeps server (((middle.started i ctx).startReports i).logged (.played i)) := by
    intro j
    have first := @keeps_setStream middle i
      { middle.stream i with ev := some ctx.ev, ctx := some ctx } rfl rfl j
    have second := startReports_keeps (middle.started i ctx) i j
    exact ⟨second.1.trans (first.1.trans (same j).1), second.2.trans (first.2.trans (same j).2)⟩
  rw [Server.playStream] at played
  by_cases audio : i = .audio
  · rw [if_pos audio] at played
    cases played
    exact started _ _ fun _ => ⟨rfl, rfl⟩
  · rw [if_neg audio, Server.playVideo] at played
    cases found : (server.stream i).transport with
    | none =>
        rw [found] at played
        cases played
    | some transport =>
        rw [found] at played
        cases played
        exact started _ _ fun _ => ⟨rfl, rfl⟩

theorem Sound.plays (env : Environment) {server : Server} {lost : List Nat}
    (sound : Sound server [] lost) (sessionId : UInt64) (ids : List StreamId) (ready : ∀ i ∈ ids,
      (server.stream i).sessionId = sessionId → (server.stream i).transport.isSome)
    (played : Bool) : ∃ next played' lost',
      ids.foldlM (Server.playTurn env sessionId) (server, played) = .ok (next, played') ∧
        Sound next [] lost' := by
  induction ids generalizing server lost played with
  | nil => exact ⟨server, played, lost, rfl, sound⟩
  | cons i ids ih =>
      obtain ⟨here, later⟩ := List.forall_mem_cons.mp ready
      by_cases named : (server.stream i).sessionId = sessionId
      · have some_ := here named
        obtain ⟨middle, lost', ran, kept⟩ :=
          sound.playStream env ((sound.streams i).transport.mp some_).1 some_
        have same := playStream_keeps ran
        obtain ⟨next, played', lost'', rest, done⟩ := ih kept (fun j member number => by
          rw [(same j).2]
          exact later j member ((same j).1.symm.trans number)) true
        refine ⟨next, played', lost'', ?_, done⟩
        rw [List.foldlM_cons, Server.playTurn, if_pos named, ran]
        exact rest
      · obtain ⟨next, played', lost', rest, done⟩ := ih sound later played
        refine ⟨next, played', lost', ?_, done⟩
        rw [List.foldlM_cons, Server.playTurn, if_neg named]
        exact rest

/-- An audio player that the timer will find without a transport. -/
def Stranded (server : Server) : Prop :=
  ∃ addr ev, (ev, Timer.player (.audio addr ev none)) ∈ server.pending ∧ server.audioAt addr = 0

theorem startReports_pending (server : Server) (i : StreamId) :
    ∀ entry ∈ server.pending, entry ∈ (server.startReports i).pending := by
  intro entry member
  rw [Server.startReports]
  split
  · exact List.mem_cons_of_mem _ member
  · exact member

theorem startReports_audioAt (server : Server) (i : StreamId) :
    (server.startReports i).audioAt = server.audioAt := by
  rw [Server.startReports]
  split <;> rfl

theorem playStream_stranded {env : Environment} {server next : Server} {i : StreamId}
    (played : server.playStream env i = .ok next)
    (cause : Stranded server ∨ (server.stream i).transport = none) : Stranded next := by
  rw [Server.playStream] at played
  by_cases audio : i = .audio
  · rw [if_pos audio] at played
    cases played
    rcases cause with ⟨addr, ev, member, start⟩ | none_
    · refine ⟨addr, ev, startReports_pending _ i _ (List.mem_cons_of_mem _ member), ?_⟩
      change ((server.playAudio i).startReports i).audioAt addr = 0
      rw [startReports_audioAt]
      change Function.update server.audioAt server.arena.next 0 addr = 0
      rw [Function.update_apply, start, ite_self]
    · refine ⟨server.arena.next, server.arena.next + 1, ?_, ?_⟩
      · rw [← none_]
        exact startReports_pending _ i _ List.mem_cons_self
      · change ((server.playAudio i).startReports i).audioAt server.arena.next = 0
        rw [startReports_audioAt]
        exact Function.update_self _ _ _
  · rw [if_neg audio, Server.playVideo] at played
    cases found : (server.stream i).transport with
    | none =>
        rw [found] at played
        cases played
    | some transport =>
        rw [found] at played
        cases played
        rcases cause with ⟨addr, ev, member, start⟩ | none_
        · refine ⟨addr, ev, startReports_pending _ i _ (List.mem_cons_of_mem _ member), ?_⟩
          exact (congrFun (startReports_audioAt _ i) addr).trans start
        · rw [found] at none_
          contradiction

theorem plays_stranded (env : Environment) (sessionId : UInt64) (ids : List StreamId) (server : Server)
    (cause : Stranded server ∨ ∃ i ∈ ids, (server.stream i).sessionId = sessionId ∧
      (server.stream i).transport = none) (played : Bool) {next : Server} {played' : Bool}
    (ran : ids.foldlM (Server.playTurn env sessionId) (server, played) = .ok (next, played')) :
    Stranded next := by
  induction ids generalizing server played with
  | nil =>
      cases ran
      rcases cause with stranded | ⟨i, none_, _⟩
      · exact stranded
      · exact absurd none_ List.not_mem_nil
  | cons i ids ih =>
      rw [List.foldlM_cons, Server.playTurn] at ran
      by_cases named : (server.stream i).sessionId = sessionId
      · rw [if_pos named] at ran
        cases turn : server.playStream env i with
        | error fault =>
            rw [turn] at ran
            cases ran
        | ok middle =>
            rw [turn] at ran
            refine ih middle ?_ true ran
            rcases cause with stranded | ⟨j, member, number, none_⟩
            · exact Or.inl (playStream_stranded turn (Or.inl stranded))
            · rcases List.mem_cons.mp member with rfl | later
              · exact Or.inl (playStream_stranded turn (Or.inr none_))
              · have same := playStream_keeps turn j
                exact Or.inr ⟨j, later, same.1.trans number, same.2.trans none_⟩
      · rw [if_neg named] at ran
        refine ih server ?_ played ran
        rcases cause with stranded | ⟨j, member, number, none_⟩
        · exact Or.inl stranded
        · rcases List.mem_cons.mp member with rfl | later
          · exact absurd number named
          · exact Or.inr ⟨j, later, number, none_⟩

end Compy.Connection
