import Compy.Library.CheckedBytes

/-!
# Packets given to an RTP transport

`Compy_RtpTransport_send_packet` with its timestamp given is the function `send`, from the
marker, the payload header and the payload to its return value and the transport
afterwards.
-/

set_option autoImplicit false

namespace Compy.Rtp

open CheckedBytes

abbrev RtpSend (ρ : Type) :=
  (marker : Bool) → (payloadHeader payload : List UInt8) → ρ → Access (ρ × Int)

variable {ρ : Type}

/-- What one call of `send` is given. -/
structure RtpPayload where
  marker : Bool
  header : List UInt8
  data : List UInt8
  deriving DecidableEq, Repr

def RtpPayload.bytes (self : RtpPayload) : List UInt8 := self.header ++ self.data

/-- One call after the other, up to the first that fails. -/
def sendAll (send : RtpSend ρ) : List RtpPayload → ρ → Access (ρ × Int)
  | [], t => .ok (t, 0)
  | packet :: packets, t => do
      let (t, ret) ← send packet.marker packet.header packet.data t
      if ret = -1 then return (t, -1)
      sendAll send packets t

theorem sendAll_append (send : RtpSend ρ) (front back : List RtpPayload) (t : ρ) :
    sendAll send (front ++ back) t = (do
      let (t, ret) ← sendAll send front t
      if ret = -1 then return (t, -1)
      sendAll send back t) := by
  induction front generalizing t with
  | nil => rfl
  | cons packet front ih =>
      rw [List.cons_append, sendAll, sendAll]
      cases sent : send packet.marker packet.header packet.data t with
      | error fault => rfl
      | ok result =>
          obtain ⟨t', ret⟩ := result
          by_cases failed : ret = -1
          · simp [failed]
          · simp only [ok_bind, failed, if_false]
            exact ih t'

theorem sendAll_ret (send : RtpSend ρ) (packets : List RtpPayload) (t t' : ρ) (ret : Int)
    (ran : sendAll send packets t = .ok (t', ret)) : ret = 0 ∨ ret = -1 := by
  induction packets generalizing t with
  | nil =>
      cases ran
      exact Or.inl rfl
  | cons packet packets ih =>
      rw [sendAll] at ran
      cases sent : send packet.marker packet.header packet.data t with
      | error fault =>
          rw [sent] at ran
          contradiction
      | ok result =>
          rw [sent, ok_bind] at ran
          dsimp only at ran
          split at ran
          · cases ran
            exact Or.inr rfl
          · exact ih _ ran

theorem sendAll_returns {faults : Prop} {post : ρ → Prop} {send : RtpSend ρ}
    (each : ∀ marker header data t, post t →
      Returns faults (fun sent => post sent.1) (send marker header data t))
    (packets : List RtpPayload) (t : ρ) (holds : post t) :
    Returns faults (fun sent => post sent.1) (sendAll send packets t) := by
  induction packets generalizing t with
  | nil => exact holds
  | cons packet packets ih =>
      rw [sendAll]
      refine (each packet.marker packet.header packet.data t holds).bind fun ⟨next, ret⟩ kept => ?_
      dsimp only
      split
      · exact kept
      · exact ih next kept

/-- An RTP transport that never fails; `emitted` is what it has sent so far. -/
def NeverFails (send : RtpSend ρ) (emitted : ρ → List RtpPayload) : Prop :=
  ∀ marker header data t, ∃ t' ret, send marker header data t = .ok (t', ret) ∧ ret ≠ -1 ∧
    emitted t' = emitted t ++ [⟨marker, header, data⟩]

theorem sendAll_neverFails {send : RtpSend ρ} {emitted : ρ → List RtpPayload}
    (never : NeverFails send emitted) (packets : List RtpPayload) (t : ρ) :
    ∃ t', sendAll send packets t = .ok (t', 0) ∧ emitted t' = emitted t ++ packets := by
  induction packets generalizing t with
  | nil => exact ⟨t, rfl, (List.append_nil _).symm⟩
  | cons packet packets ih =>
      obtain ⟨next, ret, sent, other, added⟩ := never packet.marker packet.header packet.data t
      obtain ⟨final, rest, all⟩ := ih next
      refine ⟨final, ?_, ?_⟩
      · rw [sendAll, sent, ok_bind]
        dsimp only
        rw [if_neg other, rest]
      · rw [all, added, List.append_assoc]
        rfl

/-- A transport beside which a log is kept of what it is given. -/
def recording (send : RtpSend ρ) : RtpSend (ρ × List RtpPayload) :=
  fun marker header data (t, log) => do
    let (t, ret) ← send marker header data t
    return ((t, log ++ [⟨marker, header, data⟩]), ret)

theorem recording_ok {send : RtpSend ρ} {marker : Bool} {header data : List UInt8} {t t' : ρ}
    {ret : Int} (sent : send marker header data t = .ok (t', ret)) (log : List RtpPayload) :
    recording send marker header data (t, log) =
      .ok ((t', log ++ [⟨marker, header, data⟩]), ret) := by
  rw [recording, sent]
  rfl

def recorder : RtpSend (List RtpPayload) :=
  fun marker header data packets => .ok (packets ++ [⟨marker, header, data⟩], 0)

theorem recorder_neverFails : NeverFails recorder id :=
  fun _ _ _ t => ⟨_, 0, rfl, by decide, rfl⟩

end Compy.Rtp
