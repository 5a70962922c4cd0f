import Bres.Event.Queue
import Bres.Transition.Outcome

/-!
# The life cycle of the WebRTC objects

`webrtc_init` and `webrtc_quit` of `src/webrtc.cc`. The libraries' own failures
(`RTC_CHECK` and `PANIC`) are left out: every object asked for is created.
-/

namespace Bres

open Transition

/-- `webrtc_init` -/
def webrtcInit (inst : Instance) : Instance :=
  let tracks : Handle × Handle :=
    if inst.order = .publish then (.live, .live)
    else (inst.rtc.audioTrack, inst.rtc.videoTrack)
  { inst with
    rtc := { inst.rtc with
      messageQueue := .live
      workerThread := .live
      signalingThread := .live
      peerConnectionFactory := .live
      audioTrack := tracks.1
      videoTrack := tracks.2
      peerObserver := .live } }

/-- `webrtc_quit`: the threads are stopped through their pointers, and the
observer is deleted at the end. -/
def webrtcQuit (inst : Instance) : Outcome Exn Instance :=
  let rtc := { inst.rtc with peerConnectionFactory := .null, peerConnection := .null }
  if rtc.messageQueue = .null ∨ rtc.workerThread = .null ∨ rtc.signalingThread = .null then
    .thrown .nullDereference { inst with rtc := rtc }
  else
    let rtc :=
      { rtc with messageQueue := .null, workerThread := .null, signalingThread := .null }
    match rtc.peerObserver with
    | .null => .done { inst with rtc := rtc }
    | .live => .done { inst with rtc := { rtc with peerObserver := .dangling } }
    | .dangling => .thrown .useAfterFree { inst with rtc := rtc }

/-- All that `webrtc_init` sets up is in place. -/
def Rtc.IsUp (rtc : Rtc) : Prop :=
  rtc.peerConnectionFactory = .live ∧ rtc.peerObserver = .live ∧
    rtc.messageQueue = .live ∧ rtc.workerThread = .live ∧ rtc.signalingThread = .live

instance (rtc : Rtc) : Decidable rtc.IsUp :=
  inferInstanceAs (Decidable (_ ∧ _))

/-- What `webrtc_quit` leaves of the objects that were in place. -/
def Rtc.afterQuit (rtc : Rtc) : Rtc :=
  { rtc with
    peerConnectionFactory := .null
    peerConnection := .null
    messageQueue := .null
    workerThread := .null
    signalingThread := .null
    peerObserver := .dangling }

theorem webrtcInit_isUp (inst : Instance) : (webrtcInit inst).rtc.IsUp := by
  simp [webrtcInit, Rtc.IsUp]

theorem webrtcQuit_of_isUp {inst : Instance} (h : inst.rtc.IsUp) :
    webrtcQuit inst = .done { inst with rtc := inst.rtc.afterQuit } := by
  obtain ⟨-, hobserver, hqueue, hworker, hsignaling⟩ := h
  simp [webrtcQuit, Rtc.afterQuit, hobserver, hqueue, hworker, hsignaling]

end Bres
