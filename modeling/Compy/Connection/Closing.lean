import Compy.Connection.Timers

/-!
# The end of the connection

`on_event_cb` frees the bufferevent, and `Client_drop` what the client still has pointers to.
-/

set_option autoImplicit false

namespace Compy.Connection

open CheckedBytes Ownership

/-! ## The end of the connection -/

section

variable {self : Server} {rest lost : List Nat}

theorem freeAll_ok {addrs : List Nat} (ledger : Ledger self.arena (addrs ++ rest) lost) :
    ∃ arena, self.freeAll addrs = .ok { self with arena := arena } ∧ Ledger arena rest lost := by
  obtain ⟨arena, freed, left⟩ := ledger.freeAll
  refine ⟨arena, ?_, left⟩
  rw [Server.freeAll, freed]
  rfl

def Without (evs : List Nat) (before after : List (Nat × Timer)) : Prop :=
  ∀ entry ∈ after, entry ∈ before ∧ entry.1 ∉ evs

theorem without_filter (ev : Nat) (before : List (Nat × Timer)) :
    Without [ev] before (before.filter fun entry => entry.1 != ev) := by
  intro entry member
  obtain ⟨kept, other⟩ := List.mem_filter.mp member
  exact ⟨kept, by simpa using other⟩

theorem Without.trans {first second : List Nat} {before middle after : List (Nat × Timer)}
    (one : Without first before middle) (two : Without second middle after) :
    Without (first ++ second) before after := by
  intro entry member
  obtain ⟨kept, other⟩ := two entry member
  obtain ⟨held, another⟩ := one entry kept
  exact ⟨held, fun among => (List.mem_append.mp among).elim another other⟩

theorem eventDel_ok {ev : Nat} (live : ev ∈ self.arena.live) : ∃ pending,
    self.eventDel ev = .ok { self with pending := pending } ∧ Without [ev] self.pending pending := by
  refine ⟨_, ?_, without_filter ev self.pending⟩
  rw [Server.eventDel, Server.touch, Arena.touch_ok (List.forall_mem_singleton.mpr live)]
  rfl

theorem eventFree_ok {ev : Nat} (ledger : Ledger self.arena (ev :: rest) lost) : ∃ arena pending,
    self.eventFree ev = .ok { self with arena := arena, pending := pending } ∧
      Ledger arena rest lost ∧ Without [ev] self.pending pending := by
  obtain ⟨pending, deleted, less⟩ :=
    eventDel_ok ((ledger.mem_live ev).mpr (Or.inl List.mem_cons_self))
  obtain ⟨arena, freed, left⟩ := @freeAll_ok { self with pending := pending } rest lost [ev] ledger
  refine ⟨arena, pending, ?_, left, less⟩
  rw [Server.eventFree, deleted]
  exact freed

theorem dropCtx_ok {ctx : CtxPtr} (carries : ctx.rtp.isSome)
    (ledger : Ledger self.arena (ctx.cells ++ rest) lost) : ∃ arena pending,
      self.dropCtx ctx = .ok { self with arena := arena, pending := pending } ∧
        Ledger arena rest lost ∧ Without [ctx.ev] self.pending pending := by
  obtain ⟨rtp, found⟩ := Option.isSome_iff_exists.mp carries
  rw [CtxPtr.cells, found] at ledger
  obtain ⟨middle, pending, stopped, kept, less⟩ := eventFree_ok ledger
  obtain ⟨arena, freed, left⟩ :=
    @freeAll_ok { self with arena := middle, pending := pending } rest lost _ kept
  refine ⟨arena, pending, ?_, left, less⟩
  rw [Server.dropCtx, stopped, found]
  exact freed

theorem dropRtcp_ok {rtcp : RtcpPtr} {rtcpEv : Option Nat}
    (ledger : Ledger self.arena (rtcpEv.toList ++ rtcp.cells ++ rest) lost)
    (live : rtcp.rtp.addr ∈ self.arena.live)
    (wired : rtcp.transport.interleaved = true → self.client.bev ∈ self.arena.live) :
    ∃ arena pending,
      self.dropRtcp rtcp rtcpEv = .ok { self with arena := arena, pending := pending } ∧
        Ledger arena rest lost ∧ Without rtcpEv.toList self.pending pending := by
  have reached : self.sendRtcp rtcp = .ok () := by
    refine Arena.touch_ok (List.forall_mem_cons.mpr ⟨live, fun addr member => ?_⟩)
    rcases List.mem_append.mp member with own | bev
    · exact (ledger.mem_live addr).mpr
        (Or.inl (List.mem_append_left _ (List.mem_append_right _ own)))
    · rw [Server.reach] at bev
      split at bev
      · rename_i interleaved
        rw [List.mem_singleton.mp bev]
        exact wired interleaved
      · exact absurd bev List.not_mem_nil
  rw [Server.dropRtcp, reached]
  cases rtcpEv with
  | none =>
      obtain ⟨arena, freed, left⟩ := freeAll_ok ledger
      exact ⟨arena, self.pending, freed, left, fun entry member => ⟨member, List.not_mem_nil⟩⟩
  | some ev =>
      obtain ⟨middle, pending, stopped, kept, less⟩ := eventFree_ok ledger
      obtain ⟨arena, freed, left⟩ :=
        @freeAll_ok { self with arena := middle, pending := pending } rest lost _ kept
      refine ⟨arena, pending, ?_, left, less⟩
      change (self.eventFree ev >>= fun self => self.freeAll rtcp.cells) = _
      rw [stopped]
      exact freed

def ClientStream.events (self : ClientStream) : List Nat := self.ev.toList ++ self.rtcpEv.toList

theorem stopPlayer_ok {ev : Option Nat} (live : ∀ ptr, ev = some ptr → ptr ∈ self.arena.live) :
    ∃ pending, ev.elim (.ok self) self.eventDel = .ok { self with pending := pending } ∧
      Without ev.toList self.pending pending := by
  cases ev with
  | none => exact ⟨self.pending, rfl, fun entry member => ⟨member, List.not_mem_nil⟩⟩
  | some ev => exact eventDel_ok (live ev rfl)

theorem dropReports_ok {rtcp : Option RtcpPtr} {rtcpEv : Option Nat}
    (reports : rtcpEv.isSome → rtcp.isSome)
    (ledger : Ledger self.arena (rtcpEv.toList ++ cellsOf RtcpPtr.cells rtcp ++ rest) lost)
    (live : ∀ ptr, rtcp = some ptr → ptr.rtp.addr ∈ self.arena.live ∧
      (ptr.transport.interleaved = true → self.client.bev ∈ self.arena.live)) : ∃ arena pending,
      rtcp.elim (.ok self) (fun ptr => self.dropRtcp ptr rtcpEv) =
          .ok { self with arena := arena, pending := pending } ∧
        Ledger arena rest lost ∧ Without rtcpEv.toList self.pending pending := by
  cases rtcp with
  | some ptr => exact dropRtcp_ok ledger (live ptr rfl).1 (live ptr rfl).2
  | none =>
      cases rtcpEv with
      | some ev => exact absurd (reports rfl) Bool.false_ne_true
      | none => exact ⟨self.arena, self.pending, rfl, ledger,
          fun entry member => ⟨member, List.not_mem_nil⟩⟩

theorem dropPlayer_ok {ctx : Option CtxPtr} (carries : ∀ ptr, ctx = some ptr → ptr.rtp.isSome)
    (ledger : Ledger self.arena (cellsOf CtxPtr.cells ctx ++ rest) lost) : ∃ arena pending,
      ctx.elim (.ok self) self.dropCtx = .ok { self with arena := arena, pending := pending } ∧
        Ledger arena rest lost ∧ Without [] self.pending pending := by
  cases ctx with
  | some ptr =>
      obtain ⟨arena, pending, dropped, left, less⟩ := dropCtx_ok (carries ptr rfl) ledger
      exact ⟨arena, pending, dropped, left,
        fun entry member => ⟨(less entry member).1, List.not_mem_nil⟩⟩
  | none => exact ⟨self.arena, self.pending, rfl, ledger,
      fun entry member => ⟨member, List.not_mem_nil⟩⟩

theorem dropStream_ok {log : List Deed} {i : StreamId}
    (sound : StreamSound log i (self.stream i))
    (ledger : Ledger self.arena ((self.stream i).held ++ rest) lost)
    (live : ∀ rtp, (self.stream i).transport = some rtp → rtp.addr ∈ self.arena.live)
    (wired : ∀ rtcp, (self.stream i).rtcp = some rtcp → rtcp.transport.interleaved = true →
      self.client.bev ∈ self.arena.live) :
    ∃ arena pending,
      self.dropStream i = .ok { self with arena := arena, pending := pending } ∧
        Ledger arena rest lost ∧ Without (self.stream i).events self.pending pending := by
  have player (ev : Nat) (found : (self.stream i).ev = some ev) : ev ∈ self.arena.live := by
    refine (ledger.mem_live ev).mpr (Or.inl (List.mem_append_left _ ?_))
    rw [sound.ev] at found
    obtain ⟨ctx, has, rfl⟩ := Option.map_eq_some_iff.mp found
    simp [ClientStream.held, has, CtxPtr.cells]
  have reported (rtcp : RtcpPtr) (found : (self.stream i).rtcp = some rtcp) :
      rtcp.rtp.addr ∈ self.arena.live ∧
        (rtcp.transport.interleaved = true → self.client.bev ∈ self.arena.live) := by
    refine ⟨live rtcp.rtp ?_, wired rtcp found⟩
    rw [← sound.rtcp, found]
    rfl
  obtain ⟨first, stopped, one⟩ := stopPlayer_ok player
  rw [ClientStream.held, List.append_assoc] at ledger
  obtain ⟨middle, second, reports, kept, two⟩ :=
    @dropReports_ok { self with pending := first } _ lost _ _ sound.reports ledger reported
  obtain ⟨arena, pending, dropped, left, three⟩ :=
    @dropPlayer_ok { self with arena := middle, pending := second } rest lost _
      (fun ctx found => (sound.carries ctx found).1) kept
  refine ⟨arena, pending, ?_, left, ?_⟩
  · rw [Server.dropStream, stopped]
    exact (congrArg (fun result : Access Server => result >>= fun next =>
      (self.stream i).ctx.elim (.ok next) next.dropCtx) reports).trans dropped
  · have all := (one.trans two).trans three
    rwa [List.append_nil] at all

theorem dropStreams_ok {log : List Deed} (ids : List StreamId)
    (sound : ∀ i, StreamSound log i (self.stream i))
    (ledger : Ledger self.arena (ids.flatMap (fun i => (self.stream i).held) ++ rest) lost)
    (known : ∀ i ∈ ids, ∀ rtp, (self.stream i).transport = some rtp →
      rtp.addr ∈ (self.stream i).held ++ rest)
    (wired : ∀ i ∈ ids, ∀ rtcp, (self.stream i).rtcp = some rtcp →
      rtcp.transport.interleaved = true → self.client.bev ∈ rest) : ∃ arena pending,
      ids.foldlM Server.dropStream self = .ok { self with arena := arena, pending := pending } ∧
        Ledger arena rest lost ∧
          Without (ids.flatMap fun i => (self.stream i).events) self.pending pending := by
  induction ids generalizing self with
  | nil => exact ⟨self.arena, self.pending, rfl, ledger,
      fun entry member => ⟨member, List.not_mem_nil⟩⟩
  | cons i ids ih =>
      obtain ⟨here, later⟩ := List.forall_mem_cons.mp known
      obtain ⟨hereWired, laterWired⟩ := List.forall_mem_cons.mp wired
      rw [List.flatMap_cons, List.append_assoc] at ledger
      obtain ⟨middle, first, one, kept, less⟩ := dropStream_ok (sound i) ledger (fun rtp found => by
        rw [ledger.mem_live]
        left
        have among := here rtp found
        rw [List.mem_append] at among ⊢
        exact among.imp_right (List.mem_append_right _)) (fun rtcp found interleaved => by
        rw [ledger.mem_live]
        exact Or.inl (List.mem_append_right _ (List.mem_append_right _
          (hereWired rtcp found interleaved))))
      obtain ⟨arena, pending, all, left, rest⟩ :=
        @ih { self with arena := middle, pending := first } sound kept later laterWired
      refine ⟨arena, pending, ?_, left, less.trans rest⟩
      rw [List.foldlM_cons, one]
      exact all

theorem drop_ok {log : List Deed} (sound : ∀ i, StreamSound log i (self.stream i))
    (ledger : Ledger self.arena (allStreams.flatMap (fun i => (self.stream i).held) ++
      (cellsOf BackchannelPtr.cells self.client.backchannel ++ (self.client.addr ::
        (allStreams.flatMap (fun i => (self.stream i).idle) ++ rest)))) lost)
    (wired : ∀ i rtcp, (self.stream i).rtcp = some rtcp → rtcp.transport.interleaved = true →
      self.client.bev ∈ rest) : ∃ arena pending,
      self.drop = .ok { self with arena := arena, pending := pending } ∧
        Ledger arena (allStreams.flatMap (fun i => (self.stream i).idle) ++ rest) lost ∧
        Without (allStreams.flatMap fun i => (self.stream i).events) self.pending pending := by
  have reached : self.touch [self.client.addr] = .ok () := by
    refine Arena.touch_ok (List.forall_mem_singleton.mpr ?_)
    exact (ledger.mem_live _).mpr (Or.inl (by simp))
  obtain ⟨one, pending, streams, kept, less⟩ := dropStreams_ok allStreams sound ledger
    (fun i _ rtp found => by
      have known := ClientStream.transport_known found rtp.addr
        (List.mem_append_right _ List.mem_cons_self)
      rw [List.mem_append] at known ⊢
      refine known.imp_right fun idle => ?_
      refine List.mem_append_right _ (List.mem_cons_of_mem _ (List.mem_append_left _ ?_))
      exact List.mem_flatMap.mpr ⟨i, mem_allStreams i, idle⟩)
    (fun i _ rtcp found interleaved => List.mem_append_right _ (List.mem_cons_of_mem _
      (List.mem_append_right _ (wired i rtcp found interleaved))))
  obtain ⟨two, backchannel, front⟩ : ∃ arena,
      self.client.backchannel.elim (.ok { self with arena := one, pending := pending })
        (fun ptr => Server.freeAll { self with arena := one, pending := pending }
          [ptr.receiver, ptr.addr]) = .ok { self with arena := arena, pending := pending } ∧
      Ledger arena (self.client.addr ::
        (allStreams.flatMap (fun i => (self.stream i).idle) ++ rest)) lost := by
    cases found : self.client.backchannel with
    | none =>
        rw [found] at kept
        exact ⟨one, rfl, kept⟩
    | some ptr =>
        rw [found] at kept
        exact @freeAll_ok { self with arena := one, pending := pending } _ _ _ kept
  obtain ⟨arena, freed, left⟩ := @freeAll_ok { self with arena := two, pending := pending }
    (allStreams.flatMap (fun i => (self.stream i).idle) ++ rest) lost [self.client.addr] front
  refine ⟨arena, pending, ?_, left, less⟩
  rw [Server.drop, reached]
  change (allStreams.foldlM Server.dropStream self >>= fun next : Server =>
    next.client.backchannel.elim (.ok next) (fun ptr =>
      next.freeAll [ptr.receiver, ptr.addr]) >>= fun next : Server =>
        next.freeAll [next.client.addr]) = _
  rw [streams]
  exact (congrArg (fun result : Access Server => result >>= fun next : Server =>
    next.freeAll [next.client.addr]) backchannel).trans freed

theorem ctxFree_ok {log : List Deed} (sound : ∀ i, StreamSound log i (self.stream i))
    (ledger : Ledger self.arena (allStreams.flatMap (fun i => (self.stream i).held) ++
      (cellsOf BackchannelPtr.cells self.client.backchannel ++ (self.client.addr ::
        (allStreams.flatMap (fun i => (self.stream i).idle) ++ self.ctx :: rest)))) lost)
    (wired : ∀ i rtcp, (self.stream i).rtcp = some rtcp → rtcp.transport.interleaved = true →
      self.client.bev ∈ rest) : ∃ arena pending,
      self.ctxFree = .ok { self with arena := arena, pending := pending } ∧
        Ledger arena (rest ++ allStreams.flatMap fun i => (self.stream i).idle) lost ∧
        Without (allStreams.flatMap fun i => (self.stream i).events) self.pending pending := by
  have reached : self.touch [self.ctx] = .ok () := by
    refine Arena.touch_ok (List.forall_mem_singleton.mpr ?_)
    exact (ledger.mem_live _).mpr (Or.inl (by simp))
  obtain ⟨middle, pending, dropped, kept, less⟩ := drop_ok sound ledger fun i rtcp found interleaved =>
    List.mem_cons_of_mem _ (wired i rtcp found interleaved)
  obtain ⟨arena, freed, left⟩ := @freeAll_ok { self with arena := middle, pending := pending } _ lost
    [self.ctx] (kept.divide (List.perm_append_comm.append_right _))
  refine ⟨arena, pending, ?_, left, less⟩
  rw [Server.ctxFree, reached]
  change (self.drop >>= fun next => next.freeAll [next.ctx]) = _
  rw [dropped]
  exact freed

end

/-- What `on_event_cb` leaves. -/
structure Closed (server closed : Server) (lost : List Nat) : Prop where
  ledger : Ledger closed.arena (allStreams.flatMap fun i => (server.stream i).idle) lost
  client : closed.client = server.client
  pending : Without (allStreams.flatMap fun i => (server.stream i).events) server.pending
    closed.pending

/-- A report or a BYE packet of the client goes to the bufferevent. -/
def Server.Interleaved (self : Server) : Prop :=
  ∃ i rtcp, (self.stream i).rtcp = some rtcp ∧ rtcp.transport.interleaved = true

namespace Sound

variable {self : Server} {lost : List Nat} {env : Environment}

theorem base_division (streams backchannel idle lost : List Nat) (ctx addr bev : Nat) :
    ((streams ++ (backchannel ++ ([ctx, addr, bev] ++ idle))) ++ lost).Perm
      (streams ++ (backchannel ++ (addr :: (idle ++ [ctx, bev]))) ++ lost) := by
  rw [List.perm_iff_count]
  intro other
  simp only [List.count_append, List.count_cons, List.count_nil]
  omega

theorem bev_division (streams backchannel idle lost : List Nat) (ctx addr bev : Nat) :
    ((streams ++ (backchannel ++ (addr :: (idle ++ [ctx, bev])))) ++ lost).Perm
      ([bev] ++ (streams ++ (backchannel ++ (addr :: (idle ++ [ctx])))) ++ lost) := by
  rw [List.perm_iff_count]
  intro other
  simp only [List.count_append, List.count_cons, List.count_nil]
  omega

theorem onEventCb_held (held : env.bevHeld = true) : self.onEventCb env =
    self.ctxFree >>= fun next => next.freeAll [next.client.bev] := by
  simp only [Server.onEventCb, if_pos held, ok_bind]

theorem onEventCb_free (free : ¬ env.bevHeld = true) :
    self.onEventCb env = self.freeAll [self.client.bev] >>= Server.ctxFree := by
  simp only [Server.onEventCb, if_neg free]
  cases self.freeAll [self.client.bev] with
  | error fault => rfl
  | ok next =>
      rw [ok_bind, ok_bind]
      cases next.ctxFree <;> rfl

theorem onEventCb (sound : Sound self [] lost) (safe : env.bevHeld = true ∨ ¬ self.Interleaved) :
    ∃ closed, self.onEventCb env = .ok closed ∧ Closed self closed lost := by
  have whole := sound.ledger.divide (base_division (allStreams.flatMap fun i => (self.stream i).held)
    (cellsOf BackchannelPtr.cells self.client.backchannel)
    (allStreams.flatMap fun i => (self.stream i).idle) lost self.ctx self.client.addr
    self.client.bev)
  cases held : env.bevHeld with
  | true =>
      obtain ⟨middle, pending, dropped, kept, less⟩ := ctxFree_ok sound.streams whole
        fun i rtcp _ _ => List.mem_cons_self
      obtain ⟨arena, freed, left⟩ :=
        @freeAll_ok { self with arena := middle, pending := pending } _ lost [self.client.bev] kept
      refine ⟨{ self with arena := arena, pending := pending }, ?_, left, rfl, less⟩
      rw [onEventCb_held held, dropped]
      exact freed
  | false =>
      have free : ¬ env.bevHeld = true := by rw [held]; exact Bool.false_ne_true
      have wired := safe.resolve_left free
      obtain ⟨middle, freed, rest⟩ := freeAll_ok (whole.divide (bev_division _ _ _ _ _ _ _))
      obtain ⟨arena, pending, dropped, left, less⟩ := @ctxFree_ok { self with arena := middle } []
        lost _ sound.streams rest fun i rtcp found interleaved =>
          absurd ⟨i, rtcp, found, interleaved⟩ wired
      refine ⟨{ self with arena := arena, pending := pending }, ?_, left, rfl, less⟩
      rw [onEventCb_free free, freed]
      exact dropped

end Sound

/-! ## Packets to a bufferevent that has been freed -/

/-- The client has pointers to the same as before, of which less may be live. -/
structure Shrinks (before now : Server) : Prop where
  client : now.client = before.client
  live : ∀ addr ∈ now.arena.live, addr ∈ before.arena.live

theorem Shrinks.trans {before now later : Server} (first : Shrinks before now)
    (second : Shrinks now later) : Shrinks before later :=
  ⟨second.client.trans first.client, fun addr member => first.live addr (second.live addr member)⟩

section

variable (self : Server)

theorem freeAll_shrinks (addrs : List Nat) : Returns True (Shrinks self) (self.freeAll addrs) :=
  (Arena.freeAll_live addrs self.arena).bind fun _ live => ⟨rfl, live⟩

theorem eventDel_shrinks (ev : Nat) : Returns True (Shrinks self) (self.eventDel ev) := by
  rw [Server.eventDel]
  cases self.touch [ev] with
  | error fault => trivial
  | ok done => exact ⟨rfl, fun addr member => member⟩

theorem eventFree_shrinks (ev : Nat) : Returns True (Shrinks self) (self.eventFree ev) :=
  (eventDel_shrinks self ev).bind fun middle first =>
    (freeAll_shrinks middle [ev]).mono fun _ => first.trans

theorem dropRtcp_shrinks (rtcp : RtcpPtr) (rtcpEv : Option Nat) :
    Returns True (Shrinks self) (self.dropRtcp rtcp rtcpEv) := by
  rw [Server.dropRtcp]
  cases self.sendRtcp rtcp with
  | error fault => trivial
  | ok done =>
      cases rtcpEv with
      | none => exact freeAll_shrinks self rtcp.cells
      | some ev =>
          exact (eventFree_shrinks self ev).bind fun middle first =>
            (freeAll_shrinks middle rtcp.cells).mono fun _ => first.trans

theorem dropCtx_shrinks (ctx : CtxPtr) : Returns True (Shrinks self) (self.dropCtx ctx) := by
  refine (eventFree_shrinks self ctx.ev).bind fun middle first => ?_
  cases ctx.rtp with
  | none => trivial
  | some rtp => exact (freeAll_shrinks middle (rtp.cells ++ ctx.tail)).mono fun _ => first.trans

theorem shrinks_self : Shrinks self self := ⟨rfl, fun _ member => member⟩

theorem stopPlayer_shrinks (ev : Option Nat) :
    Returns True (Shrinks self) (ev.elim (.ok self) self.eventDel) := by
  cases ev with
  | none => exact shrinks_self self
  | some ev => exact eventDel_shrinks self ev

theorem dropStream_shrinks (i : StreamId) : Returns True (Shrinks self) (self.dropStream i) := by
  refine (stopPlayer_shrinks self _).bind fun one first => ?_
  have reports : Returns True (Shrinks self) ((self.stream i).rtcp.elim (.ok one) fun rtcp =>
      one.dropRtcp rtcp (self.stream i).rtcpEv) := by
    cases (self.stream i).rtcp with
    | none => exact first
    | some rtcp => exact (dropRtcp_shrinks one rtcp _).mono fun _ => first.trans
  refine reports.bind fun two second => ?_
  cases (self.stream i).ctx with
  | none => exact second
  | some ctx => exact (dropCtx_shrinks two ctx).mono fun _ => second.trans

variable {self}

theorem dropStream_fault (bev : self.client.bev ∉ self.arena.live) {i : StreamId} {rtcp : RtcpPtr}
    (found : (self.stream i).rtcp = some rtcp) (wired : rtcp.transport.interleaved = true) :
    ∃ fault, self.dropStream i = .error fault := by
  rw [Server.dropStream]
  cases stop : (self.stream i).ev.elim (.ok self) self.eventDel with
  | error fault => exact ⟨fault, rfl⟩
  | ok middle =>
      have stopped := (stopPlayer_shrinks self (self.stream i).ev).holds stop
      have missed : middle.sendRtcp rtcp = .error .outOfBounds := by
        refine if_neg fun all => bev ?_
        rw [← stopped.client]
        refine stopped.live _ (all _ (List.mem_cons_of_mem _ (List.mem_append_right _ ?_)))
        rw [Server.reach, if_pos wired]
        exact List.mem_cons_self
      refine ⟨.outOfBounds, ?_⟩
      rw [ok_bind, found, Option.elim_some, Server.dropRtcp, missed]
      rfl

theorem dropStreams_fault (ids : List StreamId) (bev : self.client.bev ∉ self.arena.live)
    (wired : ∃ i ∈ ids, ∃ rtcp, (self.stream i).rtcp = some rtcp ∧
      rtcp.transport.interleaved = true) :
    ∃ fault, ids.foldlM Server.dropStream self = .error fault := by
  induction ids generalizing self with
  | nil =>
      obtain ⟨i, none_, _⟩ := wired
      exact absurd none_ List.not_mem_nil
  | cons i ids ih =>
      obtain ⟨j, member, rtcp, found, interleaved⟩ := wired
      rw [List.foldlM_cons]
      cases dropped : self.dropStream i with
      | error fault => exact ⟨fault, rfl⟩
      | ok next =>
          have shrinks := (dropStream_shrinks self i).holds dropped
          rcases List.mem_cons.mp member with rfl | later
          · obtain ⟨fault, ran⟩ := dropStream_fault bev found interleaved
            rw [ran] at dropped
            cases dropped
          · refine ih (fun live => bev ?_) ⟨j, later, rtcp, ?_, interleaved⟩
            · rw [← shrinks.client]
              exact shrinks.live _ live
            · rw [← found, Server.stream, Server.stream, shrinks.client]

end

/-- The connection can be closed just if libevent holds the bufferevent that it calls back for, or
nothing is interleaved. -/
theorem Sound.onEventCb_iff {self : Server} {lost : List Nat} (sound : Sound self [] lost)
    (env : Environment) : (∃ closed, self.onEventCb env = .ok closed) ↔
      env.bevHeld = true ∨ ¬ self.Interleaved := by
  constructor
  · rintro ⟨closed, ran⟩
    by_contra unsafe_
    obtain ⟨free, interleaved⟩ := not_or.mp unsafe_
    obtain ⟨i, wired⟩ := not_not.mp interleaved
    have ledger := sound.ledger.divide ((Sound.base_division _ _ _ _ _ _ _).trans
      (Sound.bev_division _ _ _ _ _ _ _))
    obtain ⟨middle, freed, rest⟩ := freeAll_ok ledger
    obtain ⟨fault, aborted⟩ := @dropStreams_fault { self with arena := middle } allStreams
      (ledger.gone rest) ⟨i, mem_allStreams i, wired⟩
    rw [Sound.onEventCb_free free, freed, ok_bind] at ran
    have missed : ∃ fault, Server.ctxFree { self with arena := middle } = .error fault := by
      rw [Server.ctxFree, Server.drop]
      cases Server.touch { self with arena := middle } [self.ctx] with
      | error fault => exact ⟨fault, rfl⟩
      | ok done =>
          cases Server.touch { self with arena := middle } [self.client.addr] with
          | error fault => exact ⟨fault, rfl⟩
          | ok done =>
              rw [ok_bind, ok_bind, aborted]
              exact ⟨fault, rfl⟩
    obtain ⟨other, missed⟩ := missed
    rw [missed] at ran
    cases ran
  · intro safe
    obtain ⟨closed, ran, _⟩ := sound.onEventCb safe
    exact ⟨closed, ran⟩

theorem StreamSound.idle_nil_iff {log : List Deed} {i : StreamId} {stream : ClientStream}
    (sound : StreamSound log i stream) (once : Once log) :
    stream.idle = [] ↔ (i ≠ .backchannel → .setUp i ∈ log → .played i ∈ log) := by
  rw [ClientStream.idle, cellsOf_eq_nil RtpPtr.cells_ne_nil, ClientStream.waiting, ← sound.played]
  cases found : stream.ctx with
  | some ctx =>
      rw [Option.bind_some, if_pos (sound.current ctx found once)]
      exact iff_of_true rfl fun _ _ => rfl
  | none =>
      have none_ : (if none = stream.transport then none else stream.transport) = none ↔
          stream.transport = none := by
        split
        · rename_i same
          exact iff_of_true rfl same.symm
        · exact Iff.rfl
      rw [Option.bind_none, none_, ← Option.not_isSome_iff_eq_none, sound.transport]
      exact ⟨fun without outbound setUp => absurd ⟨outbound, setUp⟩ without,
        fun played both => Bool.false_ne_true (played both.1 both.2)⟩

namespace Closed

variable {self closed : Server} {lost : List Nat} (ended : Closed self closed lost)

include ended

/-- Nothing is left if nothing was done twice and what was set up has been played. -/
theorem live_nil_iff (sound : Sound self [] lost) : closed.arena.live = [] ↔ Once self.log ∧
    ∀ i, i ≠ .backchannel → .setUp i ∈ self.log → .played i ∈ self.log := by
  have division := ended.ledger.division
  have empty : closed.arena.live = [] ↔
      lost = [] ∧ allStreams.flatMap (fun i => (self.stream i).idle) = [] := by
    rw [← List.length_eq_zero_iff, division.length_eq, List.length_append, Nat.add_eq_zero_iff,
      List.length_eq_zero_iff, List.length_eq_zero_iff, and_comm]
  rw [empty, sound.once]
  refine and_congr_right fun once => ?_
  rw [List.flatMap_eq_nil_iff]
  constructor
  · intro each i
    exact ((sound.streams i).idle_nil_iff once).mp (each i (mem_allStreams i))
  · intro each i _
    exact ((sound.streams i).idle_nil_iff once).mpr (each i)

theorem pending_lost (sound : Sound self [] lost) : ∀ entry ∈ closed.pending, entry.1 ∈ lost := by
  intro entry member
  obtain ⟨before, other⟩ := ended.pending entry member
  refine (sound.events entry before).resolve_right fun ⟨i, own⟩ => other ?_
  refine List.mem_flatMap.mpr ⟨i, mem_allStreams i, ?_⟩
  rw [ClientStream.events]
  simpa using own

theorem gone (sound : Sound self [] lost) : ∀ addr ∈ self.base, addr ∉ closed.arena.live := by
  intro addr base live
  have nodup := sound.ledger.division.nodup_iff.mp sound.ledger.nodup
  rw [List.nil_append, Server.owned] at nodup
  have once := List.nodup_iff_count_le_one.mp nodup addr
  have first := List.count_pos_iff.mpr base
  simp only [List.count_append] at once
  rcases (ended.ledger.mem_live addr).mp live with idle | left
  · have second := List.count_pos_iff.mpr idle
    omega
  · have second := List.count_pos_iff.mpr left
    omega

end Closed

end Compy.Connection
