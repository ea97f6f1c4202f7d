import Compy.Library.ReplayWindow
import Compy.Srtp.ReceiveSpec

/-!
# The two replay windows over whole runs

A receive context goes through any sequence of SRTP and SRTCP calls.  `History`
keeps beside it the indices its windows have recorded so far: an index counts as
admitted when the call changed the window it belongs to.  Each window is shown to
track its own set, and what it admits next is decided by that set alone.
-/

set_option autoImplicit false

namespace Compy.Srtp

open BigEndian CheckedBytes ReplayWindow

/-! ## The windows of one context -/

def SrtpRecvCtx.highest (ctx : SrtpRecvCtx) : Nat := (ctx.roc * 65536 + ctx.sL.toUInt32).toNat

/-- Before its first packet the SRTP window is empty at index 0. -/
def SrtpRecvCtx.StartsEmpty (ctx : SrtpRecvCtx) : Prop :=
  ctx.initialized = false → ctx.highest = 0 ∧ ctx.replayWindow = 0

theorem toNat_sub_of_not_lt (highest index : UInt32) (behind : ¬ highest < index) :
    (highest - index).toNat = highest.toNat - index.toNat := by
  rw [UInt32.lt_iff_toNat_lt] at behind
  have left := highest.toNat_lt
  have right := index.toNat_lt
  rw [UInt32.toNat_sub]
  omega

theorem toNat_sub_of_lt (highest index : UInt32) (ahead : highest < index) :
    (index - highest).toNat = index.toNat - highest.toNat :=
  toNat_sub_of_not_lt index highest (by
    rw [UInt32.lt_iff_toNat_lt] at ahead ⊢
    omega)

theorem acceptable_iff_test (highest index : UInt32) (mask : BitVec 64) :
    Acceptable highest.toNat mask index.toNat ↔
      highest < index ∨ ¬ srtpReplayWindowSize ≤ (highest - index).toNat ∧
        ¬ mask &&& 1#64 <<< (highest - index).toNat ≠ 0 := by
  by_cases ahead : highest < index
  · exact iff_of_true (Or.inl (UInt32.lt_iff_toNat_lt.mp ahead)) (Or.inl ahead)
  · have behind : ¬ highest.toNat < index.toNat := fun less =>
      ahead (UInt32.lt_iff_toNat_lt.mpr less)
    rw [toNat_sub_of_not_lt _ _ ahead, Acceptable, or_iff_right behind, or_iff_right ahead,
      not_not, not_le]
    exact and_congr_right fun near => (and_shift_eq_zero mask _ near).symm

theorem advance_eq_step (highest index : UInt32) (mask : BitVec 64) :
    advance highest.toNat mask index.toNat =
      if highest < index then
        (index.toNat, (if (index - highest).toNat < srtpReplayWindowSize then
          mask <<< (index - highest).toNat else 0) ||| 1)
      else (highest.toNat, mask ||| 1#64 <<< (highest - index).toNat) := by
  rw [advance]
  by_cases ahead : highest < index
  · rw [if_pos ahead, if_pos (UInt32.lt_iff_toNat_lt.mp ahead), toNat_sub_of_lt _ _ ahead]
    simp only [mark, slide, BitVec.shiftLeft_zero]
    rfl
  · rw [if_neg ahead, if_neg (fun less => ahead (UInt32.lt_iff_toNat_lt.mpr less)),
      toNat_sub_of_not_lt _ _ ahead, mark]

theorem replayCheck_iff (ctx : SrtpRecvCtx) (empty : ctx.StartsEmpty) (index : UInt32) :
    replayCheck ctx index = 0 ↔ Acceptable ctx.highest ctx.replayWindow index.toNat := by
  unfold replayCheck
  cases started : ctx.initialized with
  | false =>
      obtain ⟨zero, clear⟩ := empty started
      simp [Acceptable, zero, clear]
  | true =>
      rw [SrtpRecvCtx.highest, acceptable_iff_test]
      simp only [not_true_eq_false, if_false]
      by_cases ahead : ctx.roc * 65536 + ctx.sL.toUInt32 < index
      · simp [ahead]
      · rw [if_neg ahead, or_iff_right ahead]
        split
        · rename_i old
          exact iff_of_false (by decide) (fun both => both.1 old)
        · rename_i near
          split
          · rename_i seen
            exact iff_of_false (by decide) (fun both => both.2 seen)
          · rename_i unseen
            exact iff_of_true rfl ⟨near, unseen⟩

theorem replayUpdate_advance (ctx : SrtpRecvCtx) (empty : ctx.StartsEmpty) (seq : UInt16)
    (v : UInt32) :
    (replayUpdate ctx seq v).initialized = true ∧
      ((replayUpdate ctx seq v).highest, (replayUpdate ctx seq v).replayWindow) =
        advance ctx.highest ctx.replayWindow (v * 65536 + seq.toUInt32).toNat := by
  unfold replayUpdate
  cases started : ctx.initialized with
  | false =>
      obtain ⟨zero, clear⟩ := empty started
      refine ⟨rfl, ?_⟩
      rw [zero, clear, advance]
      simp only [SrtpRecvCtx.highest, Bool.false_eq_true, not_false_eq_true, if_true]
      split
      · simp [mark, slide]
      · rename_i first
        simp [mark, show (v * 65536 + seq.toUInt32).toNat = 0 by omega]
  | true =>
      have step : advance ctx.highest ctx.replayWindow (v * 65536 + seq.toUInt32).toNat = _ :=
        advance_eq_step (ctx.roc * 65536 + ctx.sL.toUInt32) _ ctx.replayWindow
      rw [step]
      simp only [not_true_eq_false, if_false]
      split
      · exact ⟨rfl, rfl⟩
      · exact ⟨rfl, rfl⟩

theorem srtcpReplayStep_none (ctx : SrtpRecvCtx) (index : UInt32) :
    srtcpReplayStep ctx index = none ↔
      ¬ Acceptable ctx.srtcpHighestIndex.toNat ctx.srtcpReplayWindow index.toNat := by
  rw [acceptable_iff_test]
  unfold srtcpReplayStep
  by_cases ahead : ctx.srtcpHighestIndex < index
  · simp [ahead]
  · rw [if_neg ahead, or_iff_right ahead]
    dsimp only
    split
    · rename_i old
      exact iff_of_true rfl (fun both => both.1 old)
    · rename_i near
      split
      · rename_i seen
        exact iff_of_true rfl (fun both => both.2 seen)
      · rename_i unseen
        exact iff_of_false (by simp) (fun one => one ⟨near, unseen⟩)

theorem srtcpReplayStep_advance (ctx moved : SrtpRecvCtx) (index : UInt32)
    (accepted : srtcpReplayStep ctx index = some moved) :
    (moved.srtcpHighestIndex.toNat, moved.srtcpReplayWindow) =
      advance ctx.srtcpHighestIndex.toNat ctx.srtcpReplayWindow index.toNat := by
  rw [advance_eq_step]
  unfold srtcpReplayStep at accepted
  split at accepted
  · rename_i ahead
    rw [if_pos ahead, ← Option.some.inj accepted]
  · rename_i behind
    rw [if_neg behind]
    dsimp only at accepted
    split at accepted
    · contradiction
    · split at accepted
      · contradiction
      · rw [← Option.some.inj accepted]

/-! ## Calls and what they admit -/

/-- What a caller promises: the array holds the bytes it says it does. -/
structure Datagram where
  data : List UInt8
  len : Nat
  held : len ≤ data.length

inductive RecvCall where
  | srtp (datagram : Datagram)
  | srtcp (datagram : Datagram)

def SrtpRecvCtx.srtpWindow (ctx : SrtpRecvCtx) : UInt32 × UInt16 × Bool × BitVec 64 :=
  (ctx.roc, ctx.sL, ctx.initialized, ctx.replayWindow)

def SrtpRecvCtx.srtcpWindow (ctx : SrtpRecvCtx) : UInt32 × BitVec 64 :=
  (ctx.srtcpHighestIndex, ctx.srtcpReplayWindow)

/-- A context and the indices its two windows have admitted, latest first. -/
structure History where
  ctx : SrtpRecvCtx
  srtpAdmitted : List Nat
  srtcpAdmitted : List Nat

def History.start (ops : CryptoSrtpOps) (suite : SrtpSuite) (key : SrtpKeyMaterial) : History :=
  ⟨srtpRecvNew ops suite key, [], []⟩

def History.call (ops : CryptoSrtpOps) (history : History) : RecvCall → Access History
  | .srtp ⟨data, len, _⟩ => do
      let out ← srtpRecvUnprotect ops history.ctx data len
      let index := (recvIndex history.ctx data).toNat
      return { history with
        ctx := out.ctx
        srtpAdmitted := if out.ctx.srtpWindow = history.ctx.srtpWindow then history.srtpAdmitted
          else index :: history.srtpAdmitted }
  | .srtcp ⟨data, len, _⟩ => do
      let out ← srtcpRecvUnprotect ops history.ctx data len
      let index := (recvSrtcpIndex history.ctx data len).toNat
      return { history with
        ctx := out.ctx
        srtcpAdmitted := if out.ctx.srtcpWindow = history.ctx.srtcpWindow then
          history.srtcpAdmitted else index :: history.srtcpAdmitted }

def History.run (ops : CryptoSrtpOps) : List RecvCall → History → Access History
  | [], history => .ok history
  | call :: rest, history => do
      let next ← history.call ops call
      History.run ops rest next

structure History.Sound (history : History) : Prop where
  startsEmpty : history.ctx.StartsEmpty
  srtp : Tracks {i | i ∈ history.srtpAdmitted} history.ctx.highest history.ctx.replayWindow
  srtcp : Tracks {i | i ∈ history.srtcpAdmitted} history.ctx.srtcpHighestIndex.toNat
    history.ctx.srtcpReplayWindow
  srtpOnce : history.srtpAdmitted.Nodup
  srtcpOnce : history.srtcpAdmitted.Nodup

theorem srtpRecvNew_highest (ops : CryptoSrtpOps) (suite : SrtpSuite) (key : SrtpKeyMaterial) :
    (srtpRecvNew ops suite key).highest = 0 := by
  simp [SrtpRecvCtx.highest, srtpRecvNew]

theorem History.start_sound (ops : CryptoSrtpOps) (suite : SrtpSuite) (key : SrtpKeyMaterial) :
    (History.start ops suite key).Sound := by
  have empty : {i : Nat | i ∈ ([] : List Nat)} = ∅ := by simp
  have window : Tracks {i : Nat | i ∈ ([] : List Nat)} 0 (0 : BitVec 64) := by
    rw [empty]
    exact tracks_start
  have highest := srtpRecvNew_highest ops suite key
  refine ⟨fun _ => ⟨highest, rfl⟩, ?_, window, List.nodup_nil, List.nodup_nil⟩
  change Tracks {i : Nat | i ∈ ([] : List Nat)} (srtpRecvNew ops suite key).highest 0
  rw [highest]
  exact window

theorem replayUpdate_moves (ctx : SrtpRecvCtx) (empty : ctx.StartsEmpty) (seq : UInt16)
    (v : UInt32) (acceptable : Acceptable ctx.highest ctx.replayWindow
      (v * 65536 + seq.toUInt32).toNat) :
    (replayUpdate ctx seq v).srtpWindow ≠ ctx.srtpWindow := by
  intro same
  have step := (replayUpdate_advance ctx empty seq v).2
  simp only [SrtpRecvCtx.srtpWindow, Prod.mk.injEq] at same
  obtain ⟨roc, sL, _, window⟩ := same
  have highest : (replayUpdate ctx seq v).highest = ctx.highest := by
    rw [SrtpRecvCtx.highest, roc, sL]
    rfl
  rw [highest, window] at step
  exact advance_ne _ _ _ acceptable step.symm

theorem srtcpReplayStep_moves (ctx moved : SrtpRecvCtx) (index : UInt32)
    (accepted : srtcpReplayStep ctx index = some moved) :
    moved.srtcpWindow ≠ ctx.srtcpWindow := by
  intro same
  have step := srtcpReplayStep_advance ctx moved index accepted
  simp only [SrtpRecvCtx.srtcpWindow, Prod.mk.injEq] at same
  rw [same.1, same.2] at step
  have acceptable : Acceptable ctx.srtcpHighestIndex.toNat ctx.srtcpReplayWindow index.toNat := by
    by_contra refused
    rw [(srtcpReplayStep_none ctx index).mpr refused] at accepted
    contradiction
  exact advance_ne _ _ _ acceptable step.symm

theorem setOf_mem_cons (index : Nat) (admitted : List Nat) :
    {i | i ∈ index :: admitted} = insert index {i | i ∈ admitted} := by
  ext i
  simp

/-- One SRTP call on a sound history: the packet is admitted exactly when it is
authentic and its index is fresh, and the history stays sound. -/
theorem History.srtp_call (ops : CryptoSrtpOps) (history next : History) (datagram : Datagram)
    (sound : history.Sound) (called : history.call ops (.srtp datagram) = .ok next) :
    next.Sound ∧ next.ctx.srtcpWindow = history.ctx.srtcpWindow ∧
      (next.ctx.srtpWindow ≠ history.ctx.srtpWindow ↔
        12 + history.ctx.authTagLen ≤ datagram.len ∧
          SrtpTagOk ops history.ctx datagram.data datagram.len ∧
          Fresh 64 {i | i ∈ history.srtpAdmitted} (recvIndex history.ctx datagram.data).toNat) := by
  obtain ⟨data, len, held⟩ := datagram
  have decides := sound.srtp.acceptable_iff (by decide) (recvIndex history.ctx data).toNat
  have checks := replayCheck_iff history.ctx sound.startsEmpty (recvIndex history.ctx data)
  simp only [History.call] at called
  cases returned : srtpRecvUnprotect ops history.ctx data len with
  | error fault =>
      rw [returned] at called
      contradiction
  | ok out =>
      rw [returned, ok_bind] at called
      have result := Except.ok.inj called
      rcases srtpRecvUnprotect_cases ops history.ctx data len held out returned with
        ⟨same, refused⟩ | ⟨long, genuine, passed, answer⟩
      · have unchanged : next = history := by
          rw [← result, same]
          simp
        rw [unchanged]
        refine ⟨sound, rfl, iff_of_false (fun moved => moved rfl) ?_⟩
        rintro ⟨long, genuine, fresh⟩
        exact refused long genuine (checks.mpr (decides.mpr fresh))
      · have ctx :
            out.ctx = replayUpdate history.ctx (recvSeq data) (recvRoc history.ctx data) := by
          rcases answer with ⟨_, same⟩ | ⟨_, _, same⟩
          · rw [same]
          · rw [same]
        have acceptable := checks.mp passed
        have moved : out.ctx.srtpWindow ≠ history.ctx.srtpWindow := by
          rw [ctx]
          exact replayUpdate_moves history.ctx sound.startsEmpty _ _ acceptable
        obtain ⟨started, step⟩ := replayUpdate_advance history.ctx sound.startsEmpty
          (recvSeq data) (recvRoc history.ctx data)
        obtain ⟨_, _, _, _, frame⟩ := replayUpdate_frame history.ctx (recvSeq data)
          (recvRoc history.ctx data)
        have rtcp : out.ctx.srtcpHighestIndex = history.ctx.srtcpHighestIndex ∧
            out.ctx.srtcpReplayWindow = history.ctx.srtcpReplayWindow := by
          rw [ctx, frame]
          exact ⟨rfl, rfl⟩
        have tracked := sound.srtp.advance (recvIndex history.ctx data).toNat
        have index : recvIndex history.ctx data =
            recvRoc history.ctx data * 65536 + (recvSeq data).toUInt32 := rfl
        rw [if_neg moved] at result
        rw [← result]
        refine ⟨⟨?_, ?_, ?_, ?_, sound.srtcpOnce⟩, ?_, ?_⟩
        · intro fresh
          change out.ctx.initialized = false at fresh
          rw [ctx, started] at fresh
          contradiction
        · change Tracks _ out.ctx.highest out.ctx.replayWindow
          have highest := congrArg Prod.fst step
          have window := congrArg Prod.snd step
          dsimp only at highest window
          rw [setOf_mem_cons, ctx, highest, window, ← index]
          exact tracked
        · change Tracks _ out.ctx.srtcpHighestIndex.toNat out.ctx.srtcpReplayWindow
          rw [rtcp.1, rtcp.2]
          exact sound.srtcp
        · exact List.nodup_cons.mpr ⟨(decides.mp acceptable).1, sound.srtpOnce⟩
        · exact Prod.ext rtcp.1 rtcp.2
        · exact iff_of_true moved ⟨long, genuine, decides.mp acceptable⟩

theorem History.srtcp_call (ops : CryptoSrtpOps) (history next : History) (datagram : Datagram)
    (sound : history.Sound) (called : history.call ops (.srtcp datagram) = .ok next) :
    next.Sound ∧ next.ctx.srtpWindow = history.ctx.srtpWindow ∧
      (next.ctx.srtcpWindow ≠ history.ctx.srtcpWindow ↔
        12 + history.ctx.authTagLen ≤ datagram.len ∧
          SrtcpTagOk ops history.ctx datagram.data datagram.len ∧
          Fresh 64 {i | i ∈ history.srtcpAdmitted}
            (recvSrtcpIndex history.ctx datagram.data datagram.len).toNat) := by
  obtain ⟨data, len, held⟩ := datagram
  have decides := sound.srtcp.acceptable_iff (by decide) (recvSrtcpIndex history.ctx data len).toNat
  have checks := srtcpReplayStep_none history.ctx (recvSrtcpIndex history.ctx data len)
  simp only [History.call] at called
  rcases srtcpRecvUnprotect_cases ops history.ctx data len held with
    ⟨returned, refused⟩ | ⟨long, genuine, moved, accepted, returned⟩
  · rw [returned, ok_bind] at called
    have unchanged : next = history := by
      rw [← Except.ok.inj called]
      simp
    rw [unchanged]
    refine ⟨sound, rfl, iff_of_false (fun moved => moved rfl) ?_⟩
    rintro ⟨long, genuine, fresh⟩
    exact checks.mp (refused long genuine) (decides.mpr fresh)
  · rw [returned, ok_bind] at called
    have result := Except.ok.inj called
    have acceptable := not_not.mp (fun refused =>
      Option.some_ne_none _ (accepted.symm.trans (checks.mpr refused)))
    have changed := srtcpReplayStep_moves _ _ _ accepted
    have step := srtcpReplayStep_advance _ _ _ accepted
    obtain ⟨_, _, frame⟩ := srtcpReplayStep_frame _ _ _ accepted
    have tracked := sound.srtcp.advance (recvSrtcpIndex history.ctx data len).toNat
    rw [if_neg changed] at result
    rw [← result]
    refine ⟨⟨?_, ?_, ?_, sound.srtpOnce, ?_⟩, ?_, ?_⟩
    · rw [frame]
      exact sound.startsEmpty
    · rw [frame]
      exact sound.srtp
    · change Tracks _ moved.srtcpHighestIndex.toNat moved.srtcpReplayWindow
      rw [setOf_mem_cons, (Prod.mk.inj step).1, (Prod.mk.inj step).2]
      exact tracked
    · exact List.nodup_cons.mpr ⟨(decides.mp acceptable).1, sound.srtcpOnce⟩
    · rw [frame]
      rfl
    · exact iff_of_true changed ⟨long, genuine, decides.mp acceptable⟩

theorem History.call_sound (ops : CryptoSrtpOps) (history next : History) (call : RecvCall)
    (sound : history.Sound) (called : history.call ops call = .ok next) : next.Sound := by
  cases call with
  | srtp datagram => exact (History.srtp_call ops history next datagram sound called).1
  | srtcp datagram => exact (History.srtcp_call ops history next datagram sound called).1

theorem History.call_error (ops : CryptoSrtpOps) (history : History) (call : RecvCall)
    (fault : Fault) (failed : history.call ops call = .error fault) :
    fault = .outOfBounds ∧ ∃ datagram, call = .srtp datagram ∧
      srtpMaxPacketSize + history.ctx.session.authTagLen < datagram.len := by
  cases call with
  | srtp datagram =>
      obtain ⟨data, len, held⟩ := datagram
      simp only [History.call] at failed
      rcases srtpRecvUnprotect_returns ops history.ctx data len held with
        ⟨out, returned⟩ | ⟨outside, _, _, oversize⟩
      · rw [returned] at failed
        contradiction
      · rw [outside] at failed
        exact ⟨(Except.error.inj failed).symm, _, rfl, oversize⟩
  | srtcp datagram =>
      obtain ⟨data, len, held⟩ := datagram
      simp only [History.call] at failed
      rcases srtcpRecvUnprotect_cases ops history.ctx data len held with
        ⟨returned, _⟩ | ⟨_, _, _, _, returned⟩
      · rw [returned] at failed
        contradiction
      · rw [returned] at failed
        contradiction

theorem History.call_session (ops : CryptoSrtpOps) (history next : History) (call : RecvCall)
    (called : history.call ops call = .ok next) : next.ctx.session = history.ctx.session := by
  cases call with
  | srtp datagram =>
      obtain ⟨data, len, held⟩ := datagram
      simp only [History.call] at called
      cases returned : srtpRecvUnprotect ops history.ctx data len with
      | error fault =>
          rw [returned] at called
          contradiction
      | ok out =>
          rw [returned, ok_bind] at called
          rw [← Except.ok.inj called]
          exact srtpRecvUnprotect_session ops history.ctx data len held out returned
  | srtcp datagram =>
      obtain ⟨data, len, held⟩ := datagram
      simp only [History.call] at called
      rcases srtcpRecvUnprotect_cases ops history.ctx data len held with
        ⟨returned, _⟩ | ⟨_, _, moved, accepted, returned⟩
      · rw [returned, ok_bind] at called
        rw [← Except.ok.inj called]
      · rw [returned, ok_bind] at called
        obtain ⟨_, _, frame⟩ := srtcpReplayStep_frame _ _ _ accepted
        rw [← Except.ok.inj called, frame]
        rfl

theorem History.run_sound (ops : CryptoSrtpOps) (calls : List RecvCall) (history final : History)
    (sound : history.Sound) (ran : History.run ops calls history = .ok final) : final.Sound := by
  induction calls generalizing history with
  | nil =>
      cases ran
      exact sound
  | cons call rest ih =>
      simp only [History.run] at ran
      cases called : history.call ops call with
      | error fault =>
          rw [called] at ran
          contradiction
      | ok next =>
          rw [called, ok_bind] at ran
          exact ih next (History.call_sound ops history next call sound called) ran

theorem History.run_error (ops : CryptoSrtpOps) (calls : List RecvCall) (history : History)
    (fault : Fault) (failed : History.run ops calls history = .error fault) :
    fault = .outOfBounds ∧ ∃ datagram, .srtp datagram ∈ calls ∧
      srtpMaxPacketSize + history.ctx.session.authTagLen < datagram.len := by
  induction calls generalizing history with
  | nil => contradiction
  | cons call rest ih =>
      simp only [History.run] at failed
      cases called : history.call ops call with
      | error first =>
          rw [called] at failed
          obtain ⟨outside, datagram, srtp, oversize⟩ :=
            History.call_error ops history call first called
          rw [← Except.error.inj failed]
          exact ⟨outside, datagram, List.mem_cons.mpr (Or.inl srtp.symm), oversize⟩
      | ok next =>
          rw [called, ok_bind] at failed
          obtain ⟨outside, datagram, member, oversize⟩ := ih next failed
          rw [History.call_session ops history next call called] at oversize
          exact ⟨outside, datagram, List.mem_cons_of_mem call member, oversize⟩

/-! ## What a window is for -/

/-- Never admitted before, and above the highest admitted index minus 64. -/
def Admissible (admitted : List Nat) (index : Nat) : Prop :=
  index ∉ admitted ∧
    ∀ highest, IsGreatest {i | i ∈ admitted} highest → (highest : Int) - 64 < index

/-- Any sequence of calls on a new context.  Unless a datagram overran a buffer,
no index was admitted twice, and the next packet of either kind moves its window
exactly when it is authentic and its index admissible. -/
theorem replay_windows_admit (ops : CryptoSrtpOps) (suite : SrtpSuite) (key : SrtpKeyMaterial)
    (calls : List RecvCall) :
    match History.run ops calls (History.start ops suite key) with
    | .error fault => fault = .outOfBounds ∧ ∃ datagram, .srtp datagram ∈ calls ∧
        srtpMaxPacketSize + suite.authTagLen < datagram.len
    | .ok history =>
        (history.srtpAdmitted.Nodup ∧ history.srtcpAdmitted.Nodup) ∧
        (∀ datagram next, history.call ops (.srtp datagram) = .ok next →
          next.ctx.srtcpWindow = history.ctx.srtcpWindow ∧
          (next.ctx.srtpWindow ≠ history.ctx.srtpWindow ↔
            12 + history.ctx.authTagLen ≤ datagram.len ∧
            SrtpTagOk ops history.ctx datagram.data datagram.len ∧
            Admissible history.srtpAdmitted (recvIndex history.ctx datagram.data).toNat)) ∧
        (∀ datagram next, history.call ops (.srtcp datagram) = .ok next →
          next.ctx.srtpWindow = history.ctx.srtpWindow ∧
          (next.ctx.srtcpWindow ≠ history.ctx.srtcpWindow ↔
            12 + history.ctx.authTagLen ≤ datagram.len ∧
            SrtcpTagOk ops history.ctx datagram.data datagram.len ∧
            Admissible history.srtcpAdmitted
              (recvSrtcpIndex history.ctx datagram.data datagram.len).toNat)) := by
  cases ran : History.run ops calls (History.start ops suite key) with
  | error fault => exact History.run_error ops calls _ fault ran
  | ok history =>
      have sound := History.run_sound ops calls _ history (History.start_sound ops suite key) ran
      refine ⟨⟨sound.srtpOnce, sound.srtcpOnce⟩, ?_, ?_⟩
      · intro datagram next called
        obtain ⟨_, apart, admits⟩ := History.srtp_call ops history next datagram sound called
        refine ⟨apart, admits.trans (and_congr_right fun _ => and_congr_right fun _ => ?_)⟩
        exact fresh_iff_highest _ (List.finite_toSet _) _
      · intro datagram next called
        obtain ⟨_, apart, admits⟩ := History.srtcp_call ops history next datagram sound called
        refine ⟨apart, admits.trans (and_congr_right fun _ => and_congr_right fun _ => ?_)⟩
        exact fresh_iff_highest _ (List.finite_toSet _) _

end Compy.Srtp
