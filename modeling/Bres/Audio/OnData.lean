import Bres.Event.Queue
import Bres.Memory.Region
import Bres.Signal.Interpolate
import Mathlib.Data.Rat.Floor

/-!
# The sink of the audio tracks

`PeerConnectionObserverImpl::OnData` of `inc/bres+client_webrtc_inl.hh`, which WebRTC
calls with each 10 ms of a remote track. Samples at 48 kHz are queued as they are.
Samples at 16 kHz are expanded by three in a loop over the interleaved samples, and its
`double` arithmetic is kept exact here.

The bytes of a sample stand in memory as on the little-endian machines that the program
runs on. `OnData` reads nothing of the new string before the loop has written it, so
what lies behind its end is left at zero.
-/

namespace Bres

open Memory Signal

/-- The arguments of `OnData`, with the memory behind `audio_data`. -/
structure AudioFrames where
  audioData : Option Bytes
  bitsPerSample : ℤ
  sampleRate : ℤ
  numberOfChannels : ℕ
  numberOfFrames : ℕ
  size_eq : ∀ data ∈ audioData, bitsPerSample = 16 →
    data.length = numberOfFrames * 2 * numberOfChannels

/-- `((short*)audio_data)[i]` -/
def sampleAt (audioData : Bytes) (i : ℕ) : ℤ := shortAt audioData (2 * i)

/-- `std::string(size, '\0')` -/
def zeroString (size : ℕ) : Region UInt8 := ⟨size, fun _ => 0, []⟩

/-- One turn of the loop that expands samples. -/
def expandSample (audioData : Bytes) (pcm : Region UInt8) (n : ℕ) : Region UInt8 :=
  let o0 := sampleAt audioData (n - 1)
  let o1 := sampleAt audioData (n - 0)
  let n0 : ℚ := o0 / 32768
  let n1 : ℚ := o1 / 32768
  let dn := (n1 - n0) / 3
  (((pcm.writeShort (2 * (n * 3 + 0)) (truncate (n0 * 32768))).writeShort
    (2 * (n * 3 + 1)) (truncate ((n0 + dn * 1) * 32768))).writeShort
    (2 * (n * 3 + 2)) (truncate ((n0 + dn * 2) * 32768))).writeShort
    (2 * (n * 3 + 3)) (truncate (n1 * 32768))

/-- The string of the 16 kHz branch, with the loop over `n` from 1 on. -/
def expand (audioData : Bytes) (numberOfFrames numberOfChannels : ℕ) : Region UInt8 :=
  (List.range' 1 (numberOfFrames * numberOfChannels - 1)).foldl (expandSample audioData)
    (zeroString (numberOfFrames * 2 * numberOfChannels * 3))

/-- `PeerConnectionObserverImpl::OnData` -/
def onData (frames : AudioFrames) (inst : Instance) : Instance :=
  match frames.audioData with
  | none => inst
  | some audioData =>
      if frames.bitsPerSample ≠ 16 then inst
      else if frames.sampleRate = 48000 ∧ frames.numberOfFrames = 480 then
        let pcm := audioData.take (frames.numberOfFrames * 2 * frames.numberOfChannels)
        pushEvent inst .audio .audio pcm
      else if frames.sampleRate = 16000 ∧ frames.numberOfFrames = 160 then
        let pcm := (expand audioData frames.numberOfFrames frames.numberOfChannels).contents
        pushEvent inst .audio .audio pcm
      else inst

/-- A format that `OnData` accepts. -/
def AudioFrames.Accepted (frames : AudioFrames) : Prop :=
  frames.audioData ≠ none ∧ frames.bitsPerSample = 16 ∧ 1 ≤ frames.numberOfChannels ∧
    (frames.sampleRate = 48000 ∧ frames.numberOfFrames = 480 ∨
      frames.sampleRate = 16000 ∧ frames.numberOfFrames = 160)

/-! ## The block that is pushed -/

@[simp] theorem size_expandSample (audioData : Bytes) (pcm : Region UInt8) (n : ℕ) :
    (expandSample audioData pcm n).size = pcm.size := rfl

@[simp] theorem size_expand (audioData : Bytes) (numberOfFrames numberOfChannels : ℕ) :
    (expand audioData numberOfFrames numberOfChannels).size =
      numberOfFrames * 2 * numberOfChannels * 3 := by
  have hloop : ∀ (l : List ℕ) (pcm : Region UInt8),
      (l.foldl (expandSample audioData) pcm).size = pcm.size := by
    intro l
    induction l with
    | nil => exact fun _ => rfl
    | cons n l ih => exact fun pcm => ih _
  exact hloop ..

/-- An accepted call pushes one block, of 960 bytes for each channel. -/
theorem onData_of_accepted {frames : AudioFrames} (h : frames.Accepted) :
    ∃ pcm : Bytes, pcm.length = 960 * frames.numberOfChannels ∧
      ∀ inst, onData frames inst = pushEvent inst .audio .audio pcm := by
  obtain ⟨hdata, hbits, -, hformat⟩ := h
  obtain ⟨audioData, hsome⟩ := Option.ne_none_iff_exists'.1 hdata
  rcases hformat with ⟨hrate, hframes⟩ | ⟨hrate, hframes⟩
  · refine ⟨audioData.take (480 * 2 * frames.numberOfChannels), ?_, fun inst => ?_⟩
    · have hsize := frames.size_eq audioData hsome hbits
      rw [hframes] at hsize
      rw [List.length_take, hsize, Nat.min_self]
    · simp [onData, hsome, hbits, hrate, hframes]
  · refine ⟨(expand audioData 160 frames.numberOfChannels).contents, ?_, fun inst => ?_⟩
    · rw [Region.length_contents, size_expand]
      ring
    · simp [onData, hsome, hbits, hrate, hframes]

end Bres
