import Mathlib.Data.List.Induction
import Compy.Reports.Compound

/-!
# Incoming receiver reports

`Compy_Rtcp_handle_incoming` and `Compy_Rtcp_get_last_rr` over a run of datagrams.  The last
block stored is that of the latest receiver report as long as the lengths that the packets
declare are the truth; the code reads the declared length and does nothing with it.
-/

set_option autoImplicit false

namespace Compy.Reports

open CheckedBytes

def rtcpRr : UInt8 := 201

/-- The fields of the session that a peer's reports change. -/
structure RtcpReports where
  lastRr : RtcpReportBlock
  hasRr : Bool
  deriving DecidableEq, Repr

namespace RtcpReports

def new : RtcpReports where
  lastRr := ⟨0, 0, 0, 0, 0, 0, 0⟩
  hasRr := false

/-- The session and the return value. -/
def handleIncoming (self : RtcpReports) (data : List UInt8) : Access (RtcpReports × Int) := do
  match ← RtcpHeader.deserialize data with
  | none => return (self, -1)
  | some hdr =>
      if hdr.packetType = rtcpRr ∧ hdr.count > 0 then
        if data.length < 8 + 24 then return (self, -1)
        match ← RtcpReportBlock.deserialize (data.drop 8) with
        | none => return (self, -1)
        | some block => return ({ lastRr := block, hasRr := true }, 0)
      else return (self, 0)

def getLastRr (self : RtcpReports) : Option RtcpReportBlock :=
  if self.hasRr then some self.lastRr else none

def receive (datagrams : List (List UInt8)) : Access RtcpReports :=
  datagrams.foldlM (fun self data => do return (← self.handleIncoming data).1) new

end RtcpReports

/-! ## Receiver reports -/

/-- The header says that there is a report block. -/
structure ClaimsBlock (data : List UInt8) : Prop where
  version : (headerOf data).version = 2
  packetType : (headerOf data).packetType = rtcpRr
  count : (headerOf data).count > 0

/-- The packet as it declares its size has room for the block and ends in the datagram. -/
structure CoversBlock (data : List UInt8) : Prop where
  covers : 8 + 24 ≤ (headerOf data).size
  inside : (headerOf data).size ≤ data.length

instance : DecidablePred ClaimsBlock := fun data =>
  decidable_of_iff ((headerOf data).version = 2 ∧ (headerOf data).packetType = rtcpRr ∧
    (headerOf data).count > 0) ⟨fun h => ⟨h.1, h.2.1, h.2.2⟩, fun h => ⟨h.1, h.2, h.3⟩⟩

instance : DecidablePred CoversBlock := fun data =>
  decidable_of_iff (8 + 24 ≤ (headerOf data).size ∧ (headerOf data).size ≤ data.length)
    ⟨fun h => ⟨h.1, h.2⟩, fun h => ⟨h.1, h.2⟩⟩

def firstBlock (data : List UInt8) : RtcpReportBlock := blockOf (data.drop 8)

/-- The block of the latest receiver report. -/
def latestBlock (datagrams : List (List UInt8)) : Option RtcpReportBlock :=
  ((datagrams.filter fun data => ClaimsBlock data ∧ CoversBlock data).getLast?).map firstBlock

theorem latestBlock_append (earlier : List (List UInt8)) (data : List UInt8) :
    latestBlock (earlier ++ [data]) =
      if ClaimsBlock data ∧ CoversBlock data then some (firstBlock data)
      else latestBlock earlier := by
  rw [latestBlock, List.filter_append, List.filter_singleton]
  by_cases report : ClaimsBlock data ∧ CoversBlock data
  · simp [report]
  · have other : decide (ClaimsBlock data ∧ CoversBlock data) = false := decide_eq_false report
    rw [if_neg report, other]
    simp [latestBlock]

/-! ## One datagram -/

theorem handleIncoming_eq (self : RtcpReports) (data : List UInt8) :
    self.handleIncoming data =
      .ok (if ClaimsBlock data ∧ 8 + 24 ≤ data.length then (⟨firstBlock data, true⟩, 0)
        else if 4 ≤ data.length ∧ (headerOf data).version = 2 ∧ ¬ ClaimsBlock data then (self, 0)
        else (self, -1)) := by
  rw [RtcpReports.handleIncoming, RtcpHeader.deserialize_eq, ok_bind]
  by_cases read : 4 ≤ data.length ∧ (headerOf data).version = 2
  · rw [if_pos read]
    dsimp only
    by_cases claims : ClaimsBlock data
    · rw [if_pos ⟨claims.packetType, claims.count⟩]
      by_cases long : 8 + 24 ≤ data.length
      · rw [if_neg (by omega), RtcpReportBlock.deserialize_eq, if_pos (by
          rw [List.length_drop]
          omega), if_pos ⟨claims, long⟩]
        rfl
      · rw [if_pos (by omega), if_neg (fun both => long both.2), if_neg (fun all =>
          all.2.2 claims)]
        rfl
    · rw [if_neg (fun both => claims ⟨read.2, both.1, both.2⟩), if_neg (fun both => claims both.1),
        if_pos ⟨read.1, read.2, claims⟩]
      rfl
  · have neither : ¬ (ClaimsBlock data ∧ 8 + 24 ≤ data.length) := by
      intro both
      exact read ⟨by omega, both.1.version⟩
    have unread : ¬ (4 ≤ data.length ∧ (headerOf data).version = 2 ∧ ¬ ClaimsBlock data) := by
      intro all
      exact read ⟨all.1, all.2.1⟩
    rw [if_neg read, if_neg neither, if_neg unread]
    rfl

/-! ## Runs -/

/-- A datagram whose claims are true, if it makes any that are believed. -/
def Declared (data : List UInt8) : Prop :=
  ClaimsBlock data → 8 + 24 ≤ data.length → CoversBlock data

/-- At every step the block to be had is that of the latest receiver report, what is accepted
as one has it inside its declared size, and nothing else moves the session. -/
def KeepsReports (datagrams : List (List UInt8)) : Prop :=
  ∀ earlier data later, datagrams = earlier ++ data :: later → ∃ before after ret,
    RtcpReports.receive earlier = .ok before ∧ before.handleIncoming data = .ok (after, ret) ∧
    before.getLastRr = latestBlock earlier ∧ after.getLastRr = latestBlock (earlier ++ [data]) ∧
    (ClaimsBlock data → ret = 0 → CoversBlock data) ∧
    (¬ ClaimsBlock data ∨ ret = -1 → after = before)

theorem receive_append (earlier : List (List UInt8)) (data : List UInt8) :
    RtcpReports.receive (earlier ++ [data]) =
      RtcpReports.receive earlier >>= fun self => do return (← self.handleIncoming data).1 := by
  simp [RtcpReports.receive]

/-- The step: with a declared datagram the block stays that of the latest report. -/
theorem handleIncoming_declared (self : RtcpReports) (earlier : List (List UInt8))
    (data : List UInt8) (tracks : self.getLastRr = latestBlock earlier)
    (declared : Declared data) : ∃ after ret, self.handleIncoming data = .ok (after, ret) ∧
      after.getLastRr = latestBlock (earlier ++ [data]) ∧
      (ClaimsBlock data → ret = 0 → CoversBlock data) ∧
      (¬ ClaimsBlock data ∨ ret = -1 → after = self) := by
  have covered (covers : CoversBlock data) : 8 + 24 ≤ data.length :=
    Nat.le_trans covers.covers covers.inside
  rw [handleIncoming_eq, latestBlock_append]
  by_cases accepted : ClaimsBlock data ∧ 8 + 24 ≤ data.length
  · have covers := declared accepted.1 accepted.2
    rw [if_pos accepted, if_pos ⟨accepted.1, covers⟩]
    refine ⟨_, _, rfl, rfl, fun _ _ => covers, ?_⟩
    intro refused
    rcases refused with unclaimed | negative
    · exact absurd accepted.1 unclaimed
    · contradiction
  · have other : ¬ (ClaimsBlock data ∧ CoversBlock data) := fun both =>
      accepted ⟨both.1, covered both.2⟩
    rw [if_neg accepted, if_neg other]
    split
    · rename_i ignored
      exact ⟨self, 0, rfl, tracks, fun claims => absurd claims ignored.2.2, fun _ => rfl⟩
    · exact ⟨self, -1, rfl, tracks, fun _ zero => absurd zero (by decide), fun _ => rfl⟩

theorem receive_declared (datagrams : List (List UInt8))
    (declared : ∀ data ∈ datagrams, Declared data) :
    ∃ self, RtcpReports.receive datagrams = .ok self ∧
      self.getLastRr = latestBlock datagrams := by
  induction datagrams using List.reverseRecOn with
  | nil => exact ⟨RtcpReports.new, rfl, rfl⟩
  | append_singleton earlier data ih =>
      obtain ⟨self, ran, tracks⟩ := ih fun other member =>
        declared other (List.mem_append_left [data] member)
      obtain ⟨after, ret, handled, tracked, _⟩ := handleIncoming_declared self earlier data tracks
        (declared data (by simp))
      refine ⟨after, ?_, tracked⟩
      rw [receive_append, ran, ok_bind, handled]
      rfl

theorem KeepsReports.declared {datagrams : List (List UInt8)} (keeps : KeepsReports datagrams) :
    ∀ data ∈ datagrams, Declared data := by
  intro data member claims long
  obtain ⟨earlier, later, split⟩ := List.append_of_mem member
  obtain ⟨before, after, ret, _, handled, _, _, covers, _⟩ := keeps earlier data later split
  rw [handleIncoming_eq, if_pos ⟨claims, long⟩] at handled
  cases handled
  exact covers claims rfl

/-- The reports are kept as they should be in exactly the runs whose receiver reports declare
their true size. -/
theorem keepsReports_iff (datagrams : List (List UInt8)) :
    KeepsReports datagrams ↔ ∀ data ∈ datagrams, Declared data := by
  constructor
  · exact KeepsReports.declared
  · intro declared earlier data later split
    obtain ⟨before, ran, tracks⟩ := receive_declared earlier fun other member =>
      declared other (by simp [split, member])
    obtain ⟨after, ret, handled, tracked, covers, unmoved⟩ := handleIncoming_declared before
      earlier data tracks (declared data (by simp [split]))
    exact ⟨before, after, ret, ran, handled, tracks, tracked, covers, unmoved⟩

def shortReport : List UInt8 := [0x81, 201, 0, 1] ++ List.replicate 28 7

theorem shortReport_kept : ¬ KeepsReports [shortReport] := by
  intro keeps
  have covers := keeps.declared shortReport List.mem_cons_self (by decide) (by decide)
  exact absurd covers (by decide)

end Compy.Reports
