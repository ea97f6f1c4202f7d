import Compy.Library.Fragmentation
import Compy.Rtp.Playing

/-!
# The audio player

`play_audio` and `send_audio_packet_cb` of the example server: at every period the next samples
of the file, and at the first period behind the file the timer is deleted.
-/

set_option autoImplicit false

namespace Compy.Rtp

open CheckedBytes Fragmentation

variable {ρ : Type}

def audioSamplesPerPacket : Nat := 160

/-- The place is the number of the packet. -/
abbrev AudioCtx (ρ : Type) := Playing Nat ρ

def playAudio (t : ρ) (streamsPlaying : Int) : AudioCtx ρ where
  place := 0
  transport := t
  pending := true
  streamsPlaying := streamsPlaying + 1

/-- That a send fails is only printed. -/
def sendAudioPacketCb (send : TimedSend ρ) (audio : List UInt8) (ctx : AudioCtx ρ) :
    Access (AudioCtx ρ) :=
  let start := ctx.place * audioSamplesPerPacket
  if audio.length ≤ start then
    .ok { ctx with pending := false, streamsPlaying := ctx.streamsPlaying - 1 }
  else do
    let samplesCount :=
      if audio.length < start + audioSamplesPerPacket then audio.length % audioSamplesPerPacket
      else audioSamplesPerPacket
    let payload ← readBytes audio start samplesCount
    let (t, _) ← send (.raw (UInt32.ofNat start)) false [] payload ctx.transport
    return { ctx with place := ctx.place + 1, transport := t }

/-! ## The plan of a file -/

def audioPacket (audio : List UInt8) (index : Nat) : UInt32 × RtpPayload :=
  (UInt32.ofNat (index * audioSamplesPerPacket),
    ⟨false, [], window audioSamplesPerPacket audio index⟩)

def audioCount (audio : List UInt8) : Nat := windowCount audioSamplesPerPacket audio.length

/-- A packet at every period, and none at the last one. -/
def audioPlan (audio : List UInt8) (first : Nat) : PlayPlan :=
  (List.range' first (audioCount audio - first)).map (fun index => [audioPacket audio index]) ++ [[]]

theorem lt_audioCount (audio : List UInt8) (index : Nat) :
    index < audioCount audio ↔ index * audioSamplesPerPacket < audio.length := by
  have division := Nat.div_add_mod audio.length 160
  have rest := Nat.mod_lt audio.length (y := 160) (by decide)
  rw [audioCount, windowCount, audioSamplesPerPacket]
  split <;> omega

theorem readBytes_samples (audio : List UInt8) (index : Nat)
    (inside : index * audioSamplesPerPacket < audio.length) :
    readBytes audio (index * audioSamplesPerPacket)
        (if audio.length < index * audioSamplesPerPacket + audioSamplesPerPacket then
          audio.length % audioSamplesPerPacket
        else audioSamplesPerPacket) =
      .ok (window audioSamplesPerPacket audio index) := by
  rw [window]
  rw [audioSamplesPerPacket] at inside ⊢
  split
  · rename_i short
    have count : audio.length % 160 = audio.length - index * 160 := by omega
    have length : (audio.drop (index * 160)).length = audio.length - index * 160 :=
      List.length_drop
    rw [count, readBytes_ok _ _ _ (by omega), List.take_of_length_le (Nat.le_of_eq length),
      List.take_of_length_le (by rw [length]; omega)]
  · rename_i long
    rw [readBytes_ok _ _ _ (by omega)]

theorem sendAudioPacketCb_follows {limit : Nat} (room : audioSamplesPerPacket ≤ limit)
    {send : TimedSend ρ} (willing : Willing limit send) (audio : List UInt8) :
    FollowsPlan send (sendAudioPacketCb send audio)
      (fun plan index => index ≤ audioCount audio ∧ plan = audioPlan audio index) := by
  rintro packets rest ctx ⟨within, plan⟩ pending
  rw [audioPlan] at plan
  rw [sendAudioPacketCb]
  by_cases inside : ctx.place < audioCount audio
  · obtain ⟨left, count⟩ : ∃ left, audioCount audio - ctx.place = left + 1 :=
      ⟨audioCount audio - ctx.place - 1, by omega⟩
    rw [count, List.range'_succ, List.map_cons, List.cons_append, List.cons.injEq] at plan
    obtain ⟨rfl, rfl⟩ := plan
    have before := (lt_audioCount audio ctx.place).mp inside
    have short := length_window_le audioSamplesPerPacket audio ctx.place
    obtain ⟨t, ret, sent, _⟩ := willing
      (.raw (UInt32.ofNat (ctx.place * audioSamplesPerPacket))) false []
      (window audioSamplesPerPacket audio ctx.place) ctx.transport (by
        rw [List.length_nil, Nat.zero_add]
        exact Nat.le_trans short room)
    dsimp only
    rw [if_neg (Nat.not_le.mpr before), readBytes_samples audio ctx.place before, ok_bind, sent]
    refine ⟨_, rfl, ?_, ?_⟩
    · rw [sendTimed, audioPacket, sent]
      rfl
    · rw [if_neg (List.append_ne_nil_of_right_ne_nil _ (List.cons_ne_nil _ _))]
      refine ⟨pending, rfl, inside, ?_⟩
      rw [audioPlan, show audioCount audio - (ctx.place + 1) = left by omega]
  · have last : audioCount audio - ctx.place = 0 := by omega
    rw [last] at plan
    obtain ⟨rfl, rfl⟩ := List.cons_eq_cons.mp plan
    dsimp only
    rw [if_pos (Nat.le_of_not_lt fun before => inside ((lt_audioCount audio ctx.place).mpr before))]
    exact ⟨_, rfl, rfl, by rw [if_pos rfl]; exact ⟨rfl, rfl⟩⟩

theorem sendAudioPacketCb_returns {faults : Prop} {post : ρ → Prop} {send : TimedSend ρ}
    (each : ∀ ts marker header data t, post t →
      Returns faults (fun sent => post sent.1) (send ts marker header data t))
    (audio : List UInt8) (ctx : AudioCtx ρ) (holds : post ctx.transport) :
    Returns faults (fun ctx' => post ctx'.transport ∧ (ctx'.pending = true →
      ctx.place < ctx'.place ∧ ctx.place < audioCount audio)) (sendAudioPacketCb send audio ctx) := by
  rw [sendAudioPacketCb]
  dsimp only
  split
  · exact ⟨holds, fun pending => Bool.noConfusion pending⟩
  · rename_i before
    have inside := Nat.lt_of_not_le before
    rw [readBytes_samples audio ctx.place inside, ok_bind]
    exact (each _ _ _ _ _ holds).bind fun sent kept =>
      ⟨kept, fun _ => ⟨Nat.lt_succ_self _, (lt_audioCount audio ctx.place).mpr inside⟩⟩

theorem audioPlan_take (audio : List UInt8) (periods : Nat) :
    ((audioPlan audio 0).take periods).flatten =
      (List.range (min periods (audioCount audio))).map (audioPacket audio) := by
  rw [audioPlan, Nat.sub_zero, ← List.range_eq_range', List.take_append, List.flatten_append,
    ← List.map_take, List.take_range]
  have nothing (count : Nat) : ((([[]] : PlayPlan)).take count).flatten = [] := by
    cases count with
    | zero => rfl
    | succ count => rw [List.take_succ_cons, List.take_nil]; rfl
  rw [nothing, List.append_nil]
  induction min periods (audioCount audio) with
  | zero => rfl
  | succ count ih =>
      rw [List.range_succ, List.map_append, List.map_append, List.flatten_append, ih]
      rfl

theorem flatten_audioPackets (audio : List UInt8) (periods : Nat) :
    (((audioPlan audio 0).take periods).flatten.map fun packet => packet.2.bytes).flatten =
      audio.take (periods * audioSamplesPerPacket) := by
  have windows : (fun packet : UInt32 × RtpPayload => packet.2.bytes) ∘ audioPacket audio =
      window audioSamplesPerPacket audio := rfl
  rw [audioPlan_take, List.map_map, windows, flatten_windows]
  rcases Nat.le_total periods (audioCount audio) with few | many
  · rw [Nat.min_eq_left few]
  · have whole := length_le_windowCount (by decide : 0 < audioSamplesPerPacket) audio.length
    have more := Nat.mul_le_mul_right audioSamplesPerPacket many
    rw [← audioCount] at whole
    rw [Nat.min_eq_right many, List.take_of_length_le whole,
      List.take_of_length_le (Nat.le_trans whole more)]

end Compy.Rtp
