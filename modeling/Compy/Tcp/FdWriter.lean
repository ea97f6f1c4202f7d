import Compy.Tcp.Transport

/-!
# TCP transports over a file descriptor

`fd.c`: the loop around write(2), which goes on after a short count and after EINTR, and
gives up on every other answer.  A frame that has been taken in part stays on the
descriptor, and nothing keeps the next transmit from writing behind it.
-/

set_option autoImplicit false

namespace Compy.Tcp

open Compy.Rtp Compy.Rtsp

/-- What write(2) answers.  It takes `room + 1` bytes, or all where there are fewer. -/
inductive WriteOutcome where
  | accepts (room : Nat)
  | zero
  | eintr
  | error
  deriving DecidableEq, Repr

def FdWriter.writeLoop (len : Nat) :
    (remaining : List UInt8) → List WriteOutcome → (fd : List UInt8) → Option (List UInt8 × Int)
  | [], _, fd => some (fd, len)
  | _ :: _, [], _ => none
  | first :: rest, .accepts room :: outcomes, fd =>
      writeLoop len ((first :: rest).drop (room + 1)) outcomes
        (fd ++ (first :: rest).take (room + 1))
  | first :: rest, .zero :: _, fd => some (fd, (len - (first :: rest).length : Nat))
  | first :: rest, .eintr :: outcomes, fd => writeLoop len (first :: rest) outcomes fd
  | _ :: _, .error :: _, fd => some (fd, -1)

/-- `FdWriter_write` on a descriptor that has taken the bytes `fd`.  The call has not
returned where the outcomes do not last. -/
def FdWriter.write (outcomes : List WriteOutcome) : Write (List UInt8) :=
  fun data fd => writeLoop data.length data outcomes fd

/-- How many of `length` bytes write(2) takes before it fails. -/
def taken : (length : Nat) → List WriteOutcome → Nat
  | 0, _ => 0
  | length + 1, .accepts room :: outcomes =>
      min (room + 1) (length + 1) + taken (length - room) outcomes
  | length + 1, .eintr :: outcomes => taken (length + 1) outcomes
  | _ + 1, _ => 0

/-- The bytes that have been taken are on the descriptor; all of them exactly when the
return value is the length. -/
theorem FdWriter.writeLoop_cases (len : Nat) (outcomes : List WriteOutcome)
    (remaining fd fd' : List UInt8) (ret : Int) (inside : remaining.length ≤ len)
    (ran : FdWriter.writeLoop len remaining outcomes fd = some (fd', ret)) :
    fd' = fd ++ remaining.take (taken remaining.length outcomes) ∧
      (ret = len ↔ taken remaining.length outcomes = remaining.length) := by
  induction outcomes generalizing remaining fd with
  | nil =>
      cases remaining with
      | nil =>
          cases ran
          exact ⟨(List.append_nil _).symm, iff_of_true rfl rfl⟩
      | cons first rest => cases ran
  | cons outcome outcomes ih =>
      cases remaining with
      | nil =>
          cases ran
          exact ⟨(List.append_nil _).symm, iff_of_true rfl rfl⟩
      | cons first rest =>
          rw [List.length_cons] at inside
          cases outcome with
          | accepts room =>
              have length : ((first :: rest).drop (room + 1)).length = rest.length - room := by
                rw [List.length_drop, List.length_cons, Nat.add_sub_add_right]
              rw [writeLoop] at ran
              obtain ⟨bytes, all⟩ := ih _ _ (by omega) ran
              rw [length] at bytes all
              rw [List.length_cons, taken]
              by_cases enough : rest.length ≤ room
              · have none : taken (rest.length - room) outcomes = 0 := by
                  rw [Nat.sub_eq_zero_of_le enough]
                  cases outcomes <;> rfl
                rw [none, List.take_zero, List.append_nil] at bytes
                rw [none, Nat.sub_eq_zero_of_le enough] at all
                rw [none, Nat.add_zero, Nat.min_eq_right (by omega), bytes,
                  List.take_of_length_le (by rw [List.length_cons]; omega),
                  List.take_of_length_le (by rw [List.length_cons])]
                exact ⟨rfl, iff_of_true (all.mpr rfl) rfl⟩
              · rw [Nat.min_eq_left (by omega), bytes, List.append_assoc, ← List.take_add]
                exact ⟨rfl, all.trans (by omega)⟩
          | zero =>
              cases ran
              refine ⟨(List.append_nil _).symm, iff_of_false ?_ (Nat.succ_ne_zero _).symm⟩
              rw [List.length_cons]
              omega
          | eintr =>
              rw [writeLoop] at ran
              exact ih (first :: rest) fd inside ran
          | error =>
              cases ran
              refine ⟨(List.append_nil _).symm, iff_of_false ?_ (Nat.succ_ne_zero _).symm⟩
              omega

/-! ## Runs -/

/-- A transmit and what write(2) answers while it runs. -/
structure FdTransmit extends Transmit where
  outcomes : List WriteOutcome

namespace FdTransmit

def run (self : FdTransmit) (fd : List UInt8) : Option (List UInt8 × Int) :=
  self.transport.transmit (FdWriter.write self.outcomes) self.allocated self.bufs fd

def taken (self : FdTransmit) : Nat :=
  if self.refused then 0 else Tcp.taken self.total self.outcomes

def Whole (self : FdTransmit) : Prop := self.taken = self.total

def Torn (self : FdTransmit) : Prop := 0 < self.taken ∧ self.taken < self.total

instance (self : FdTransmit) : Decidable self.Whole :=
  inferInstanceAs (Decidable (self.taken = self.total))

instance (self : FdTransmit) : Decidable self.Torn :=
  inferInstanceAs (Decidable (0 < self.taken ∧ self.taken < self.total))

theorem run_cases (self : FdTransmit) (fd fd' : List UInt8) (ret : Int)
    (ran : self.run fd = some (fd', ret)) :
    fd' = fd ++ self.frame.take self.taken ∧ (ret = 0 ↔ self.Whole) := by
  rw [run, self.toTransmit.transmit_eq] at ran
  rw [Whole, taken]
  cases refused : self.refused with
  | true =>
      rw [refused] at ran
      cases ran
      refine ⟨(List.append_nil _).symm, iff_of_false (by decide) ?_⟩
      rw [Transmit.total, interleavedHeaderSize]
      simp only [if_true]
      omega
  | false =>
      rw [refused] at ran
      obtain ⟨⟨out, count⟩, wrote, same⟩ := Option.map_eq_some_iff.mp ran
      obtain ⟨bytes, all⟩ := FdWriter.writeLoop_cases _ _ _ _ _ _ (Nat.le_refl _) wrote
      rw [self.length_frame] at bytes all
      cases same
      refine ⟨bytes, ?_⟩
      rw [if_neg Bool.false_ne_true, ← all]
      split
      · rename_i whole
        exact iff_of_true rfl whole
      · rename_i short
        exact iff_of_false (by decide) short

end FdTransmit

/-- One transmit after the other; the bytes on the descriptor. -/
def runAll : List FdTransmit → List UInt8 → Option (List UInt8)
  | [], fd => some fd
  | call :: rest, fd => do
      let (fd, _) ← call.run fd
      runAll rest fd

/-- Whenever a transmit returns 0, there are nothing but whole frames on the descriptor. -/
def NeverBehindTorn (calls : List FdTransmit) : Prop :=
  ∀ (before : List FdTransmit) (call : FdTransmit) (after : List FdTransmit) (fd fd' : List UInt8),
    calls = before ++ call :: after → runAll before [] = some fd → call.run fd = some (fd', 0) →
      ∃ frames, fd' = framesBytes frames

theorem frame_eq (call : FdTransmit) (short : call.bufs.flatten.length < 2 ^ 16) :
    call.frame = framesBytes [⟨call.transport.channelId, call.bufs.flatten, short⟩] := by
  rw [framesBytes_cons, InterleavedFrame.bytes_eq]
  exact (coalesce_header _ _).trans (List.append_nil _).symm

theorem framesBytes_append (front back : List InterleavedFrame) :
    framesBytes (front ++ back) = framesBytes front ++ framesBytes back := by
  rw [framesBytes, List.map_append, List.flatten_append]
  rfl

theorem whole_frames_step (call : FdTransmit) (short : call.bufs.flatten.length < 2 ^ 16)
    (untorn : ¬ call.Torn) (frames : List InterleavedFrame) (fd' : List UInt8) (ret : Int)
    (ran : call.run (framesBytes frames) = some (fd', ret)) :
    ∃ next, fd' = framesBytes next := by
  obtain ⟨bytes, _⟩ := call.run_cases _ _ _ ran
  by_cases none : call.taken = 0
  · exact ⟨frames, by rw [bytes, none, List.take_zero, List.append_nil]⟩
  · have all : call.total ≤ call.taken :=
      Nat.le_of_not_lt fun less => untorn ⟨Nat.pos_of_ne_zero none, less⟩
    refine ⟨frames ++ [⟨call.transport.channelId, call.bufs.flatten, short⟩], ?_⟩
    rw [bytes, List.take_of_length_le (call.length_frame ▸ all), frame_eq call short,
      framesBytes_append]

theorem whole_frames_run (calls : List FdTransmit)
    (short : ∀ call ∈ calls, call.bufs.flatten.length < 2 ^ 16)
    (untorn : ∀ call ∈ calls, ¬ call.Torn) (frames : List InterleavedFrame) (fd : List UInt8)
    (ran : runAll calls (framesBytes frames) = some fd) : ∃ next, fd = framesBytes next := by
  induction calls generalizing frames with
  | nil =>
      cases ran
      exact ⟨frames, rfl⟩
  | cons call calls ih =>
      obtain ⟨shortHere, shortLater⟩ := List.forall_mem_cons.mp short
      obtain ⟨untornHere, untornLater⟩ := List.forall_mem_cons.mp untorn
      rw [runAll] at ran
      obtain ⟨⟨out, ret⟩, here, later⟩ := Option.bind_eq_some_iff.mp ran
      obtain ⟨next, rfl⟩ := whole_frames_step call shortHere untornHere frames out ret here
      exact ih shortLater untornLater next later

/-- As long as write(2) takes no frame whole after one that it has taken in part. -/
theorem neverBehindTorn (calls : List FdTransmit)
    (short : ∀ call ∈ calls, call.bufs.flatten.length < 2 ^ 16)
    (apart : calls.Pairwise fun earlier later => earlier.Torn → ¬ later.Whole) :
    NeverBehindTorn calls := by
  rintro before call after fd fd' rfl ran returned
  obtain ⟨_, _, cross⟩ := List.pairwise_append.mp apart
  have whole : call.Whole := (call.run_cases fd fd' 0 returned).2.mp rfl
  have untorn : ∀ earlier ∈ before, ¬ earlier.Torn := fun earlier member torn =>
    cross earlier member call List.mem_cons_self torn whole
  obtain ⟨frames, rfl⟩ := whole_frames_run before
    (fun earlier member => short earlier (List.mem_append_left _ member)) untorn [] fd ran
  refine whole_frames_step call ?_ ?_ frames fd' 0 returned
  · exact short call (List.mem_append_right _ List.mem_cons_self)
  · exact fun torn => absurd whole (Nat.ne_of_lt torn.2)

def tornTransmit : FdTransmit where
  transport := ⟨0⟩
  bufs := [[0xAA, 0xBB, 0xCC]]
  allocated := true
  outcomes := [.accepts 2, .error]

def laterTransmit : FdTransmit where
  transport := ⟨2⟩
  bufs := [[0x11, 0x22]]
  allocated := true
  outcomes := [.accepts 9]

theorem tornLast_neverBehindTorn : NeverBehindTorn [laterTransmit, tornTransmit] :=
  neverBehindTorn [laterTransmit, tornTransmit] (by decide) (by decide)

theorem framesBytes_first (frames : List InterleavedFrame) (bytes : List UInt8)
    (same : bytes = framesBytes frames) (more : bytes ≠ []) :
    interleavedHeaderSize + interleavedPayloadLen bytes ≤ bytes.length := by
  cases frames with
  | nil => exact absurd same more
  | cons frame frames =>
      rw [same, framesBytes_cons, frame.interleavedPayloadLen_bytes, List.length_append,
        frame.length_bytes]
      exact Nat.le_add_right _ _

/-- Three bytes of one frame and the whole of another one, whose first bytes are read as
the length of the first frame. -/
theorem laterTransmit_behind_torn : ¬ NeverBehindTorn [tornTransmit, laterTransmit] := by
  intro never
  obtain ⟨frames, same⟩ := never [tornTransmit] laterTransmit [] ['$'.toUInt8, 0, 0]
    (['$'.toUInt8, 0, 0] ++ laterTransmit.frame) rfl rfl rfl
  exact absurd (framesBytes_first frames _ same (by decide)) (by decide)

end Compy.Tcp
