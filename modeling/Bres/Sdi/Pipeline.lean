import Bres.Sdi.Output
import Bres.Transition.Custody
import Bres.Transition.Run

/-!
# The frame pipeline

`bm_pipeline_service` and `bm_add_pipeline_frame` of `src/bm.cc`. The service
thread allocates the buffers of the pipeline and passes the pictures that it
finds in the egress queue to `Device::setFrame`; the render thread takes a buffer
from the ingress queue for each frame, or drops the frame when there is none.
Every locked region, every copy into a buffer and the push back to the ingress
queue is a step of its own.

`Lined` is the invariant: each buffer is in one of the two queues or in one of
the two threads' hands, and the pictures of the calls that found a buffer are
those passed on, followed by those that wait in the consumer's hand, in the
egress queue and in the producer's hand.
-/

namespace Bres

open Transition

/-- `WND_WIDTH_FHD` of the build with the SDI output. -/
def wndWidthFhd : ℕ := wndWidth * 3

/-- `WND_HEIGHT_FHD` of the build with the SDI output. -/
def wndHeightFhd : ℕ := wndHeight * 3

/-- `WND_WIDTH_FHD * WND_HEIGHT_FHD * 4` -/
def fhdBytes : ℕ := wndWidthFhd * wndHeightFhd * 4

/-- A call of `bm_add_pipeline_frame` that has obtained a buffer. -/
structure AddCall where
  pframe : Addr
  frame : Bytes
  framelen : ℕ
  filled : Bool

/-- The picture that the call is given. -/
def AddCall.picture (call : AddCall) : Bytes := call.frame.take call.framelen

/-- The two queues with the buffers behind them, and what the two threads hold
between their steps: the render thread a call under way, the service thread a
buffer with a mark once it has been passed on. The pictures of the calls that
found a buffer and the pictures passed to `Device::setFrame` are logged; no step
reads the logs. -/
structure Pipeline where
  buffers : List Bytes := []
  pipelineIngress : List Addr := []
  pipelineEgress : List Addr := []
  started : Bool := false
  producer : Option AddCall := none
  consumer : Option (Addr × Bool) := none
  obtained : List Bytes := []
  passed : List Bytes := []

inductive PipelineAction where
  | serviceStart
  | servicePop
  | serviceSetFrame
  | servicePush
  | addPop (frame : Bytes) (framelen : ℕ)
  | addCopy
  | addPush

namespace Pipeline

/-- A step of the service thread or of the render thread. A frame of another
length than the required one ends the program. -/
def step (p : Pipeline) : PipelineAction → Option Pipeline
  | .serviceStart =>
      if p.started then none
      else some { p with
        started := true
        buffers := p.buffers ++ List.replicate 32 (List.replicate fhdBytes 0)
        pipelineIngress := p.pipelineIngress ++ List.range' p.buffers.length 32
        pipelineEgress := [] }
  | .servicePop =>
      match p.started, p.consumer, p.pipelineEgress with
      | true, none, [] => some p
      | true, none, a :: as => some { p with pipelineEgress := as, consumer := some (a, false) }
      | _, _, _ => none
  | .serviceSetFrame =>
      match p.consumer with
      | some (a, false) =>
          p.buffers[a]?.map fun pframe =>
            { p with consumer := some (a, true), passed := p.passed ++ [pframe.take fhdBytes] }
      | _ => none
  | .servicePush =>
      match p.consumer with
      | some (a, true) =>
          some { p with consumer := none, pipelineIngress := p.pipelineIngress ++ [a] }
      | _ => none
  | .addPop frame framelen =>
      match p.producer, p.pipelineIngress with
      | none, [] => some p
      | none, a :: as =>
          some { p with
            pipelineIngress := as
            producer := some ⟨a, frame, framelen, false⟩
            obtained := p.obtained ++ [frame.take framelen] }
      | _, _ => none
  | .addCopy =>
      match p.producer with
      | some ⟨a, frame, framelen, false⟩ =>
          if framelen ≠ fhdBytes then none
          else
            match p.buffers[a]? with
            | none => none
            | some pframe =>
                match memcpy pframe frame (min fhdBytes framelen) with
                | .error _ => none
                | .ok pixels =>
                    some { p with
                      buffers := p.buffers.set a pixels
                      producer := some ⟨a, frame, framelen, true⟩ }
      | _ => none
  | .addPush =>
      match p.producer with
      | some ⟨a, _, _, true⟩ =>
          some { p with producer := none, pipelineEgress := p.pipelineEgress ++ [a] }
      | _ => none

/-- The places where a buffer can be: the two queues, the producer's hand and the
consumer's hand. -/
def places (p : Pipeline) : List (List Addr) :=
  [p.pipelineIngress, p.pipelineEgress, (p.producer.map AddCall.pframe).toList,
    (p.consumer.map Prod.fst).toList]

/-- The buffers whose picture waits to be passed on, in order. -/
def waiting (p : Pipeline) : List Addr :=
  (match p.consumer with
    | some (a, false) => [a]
    | _ => []) ++ p.pipelineEgress

end Pipeline

/-- What a step of the pipeline can do. -/
inductive PipelineStep : Pipeline → PipelineAction → Pipeline → Prop where
  | started {p : Pipeline} (hstarted : p.started = false) :
      PipelineStep p .serviceStart
        { p with
          started := true
          buffers := p.buffers ++ List.replicate 32 (List.replicate fhdBytes 0)
          pipelineIngress := p.pipelineIngress ++ List.range' p.buffers.length 32
          pipelineEgress := [] }
  | idle {p : Pipeline} (hegress : p.pipelineEgress = []) : PipelineStep p .servicePop p
  | taken {p : Pipeline} {a : Addr} {as : List Addr} (hconsumer : p.consumer = none)
      (hegress : p.pipelineEgress = a :: as) :
      PipelineStep p .servicePop { p with pipelineEgress := as, consumer := some (a, false) }
  | passed {p : Pipeline} {a : Addr} {pframe : Bytes} (hconsumer : p.consumer = some (a, false))
      (hpframe : p.buffers[a]? = some pframe) :
      PipelineStep p .serviceSetFrame
        { p with consumer := some (a, true), passed := p.passed ++ [pframe.take fhdBytes] }
  | returned {p : Pipeline} {a : Addr} (hconsumer : p.consumer = some (a, true)) :
      PipelineStep p .servicePush
        { p with consumer := none, pipelineIngress := p.pipelineIngress ++ [a] }
  | dropped {p : Pipeline} {frame : Bytes} {framelen : ℕ} (hingress : p.pipelineIngress = []) :
      PipelineStep p (.addPop frame framelen) p
  | obtained {p : Pipeline} {frame : Bytes} {framelen : ℕ} {a : Addr} {as : List Addr}
      (hproducer : p.producer = none) (hingress : p.pipelineIngress = a :: as) :
      PipelineStep p (.addPop frame framelen)
        { p with
          pipelineIngress := as
          producer := some ⟨a, frame, framelen, false⟩
          obtained := p.obtained ++ [frame.take framelen] }
  | copied {p : Pipeline} {a : Addr} {frame pframe pixels : Bytes}
      (hproducer : p.producer = some ⟨a, frame, fhdBytes, false⟩)
      (hpframe : p.buffers[a]? = some pframe) (hcopy : memcpy pframe frame fhdBytes = .ok pixels) :
      PipelineStep p .addCopy
        { p with
          buffers := p.buffers.set a pixels
          producer := some ⟨a, frame, fhdBytes, true⟩ }
  | queued {p : Pipeline} {a : Addr} {frame : Bytes} {framelen : ℕ}
      (hproducer : p.producer = some ⟨a, frame, framelen, true⟩) :
      PipelineStep p .addPush
        { p with producer := none, pipelineEgress := p.pipelineEgress ++ [a] }

theorem Pipeline.step_spec {p q : Pipeline} {a : PipelineAction} (h : p.step a = some q) :
    PipelineStep p a q := by
  cases a with
  | serviceStart =>
      simp only [step] at h
      split at h
      · cases h
      · rename_i hstarted
        cases h
        exact .started (Bool.eq_false_iff.2 hstarted)
  | servicePop =>
      simp only [step] at h
      split at h
      · rename_i hegress
        cases h
        exact .idle hegress
      · rename_i hconsumer hegress
        cases h
        exact .taken hconsumer hegress
      · cases h
  | serviceSetFrame =>
      simp only [step] at h
      split at h
      · rename_i hconsumer
        obtain ⟨pframe, hpframe, rfl⟩ := Option.map_eq_some_iff.1 h
        exact .passed hconsumer hpframe
      · cases h
  | servicePush =>
      simp only [step] at h
      split at h
      · rename_i hconsumer
        cases h
        exact .returned hconsumer
      · cases h
  | addPop frame framelen =>
      simp only [step] at h
      split at h
      · rename_i hingress
        cases h
        exact .dropped hingress
      · rename_i hproducer hingress
        cases h
        exact .obtained hproducer hingress
      · cases h
  | addCopy =>
      simp only [step] at h
      split at h
      · rename_i a frame framelen hproducer
        by_cases hlen : framelen = fhdBytes
        · subst hlen
          rw [if_neg (not_not_intro rfl), min_self] at h
          cases hpframe : p.buffers[a]? with
          | none => simp [hpframe] at h
          | some pframe =>
              cases hcopy : memcpy pframe frame fhdBytes with
              | error e => simp [hpframe, hcopy] at h
              | ok pixels =>
                  simp only [hpframe, hcopy, Option.some.injEq] at h
                  subst h
                  exact .copied hproducer hpframe hcopy
        · rw [if_pos hlen] at h
          cases h
      · cases h
  | addPush =>
      simp only [step] at h
      split at h
      · rename_i hproducer
        cases h
        exact .queued hproducer
      · cases h

namespace Pipeline

/-- How the buffers and the logs stand to each other. -/
structure Lined (p : Pipeline) : Prop where
  custody : InCustody p.places (List.range p.buffers.length)
  buffers_length : p.buffers.length = if p.started then 32 else 0
  buffers_size : ∀ pixels ∈ p.buffers, pixels.length = fhdBytes
  filled : ∀ call, p.producer = some call → call.filled = true →
    p.buffers[call.pframe]? = some call.picture
  obtained_eq : p.obtained.map some =
    p.passed.map some ++ p.waiting.map (fun a => p.buffers[a]?) ++
      (p.producer.map fun call => some call.picture).toList

theorem start_lined : Lined {} where
  custody a := rfl
  buffers_length := rfl
  buffers_size := List.forall_mem_nil _
  filled call h := absurd h (by simp)
  obtained_eq := rfl

/-- Before the service has started there is no buffer anywhere. -/
theorem Lined.not_started {p : Pipeline} (hp : p.Lined) (hstarted : p.started = false) :
    p.buffers = [] ∧ p.pipelineEgress = [] ∧ p.producer = none ∧ p.consumer = none := by
  have hbuffers : p.buffers = [] := by
    simpa [hstarted] using hp.buffers_length
  have hcustody := hp.custody.perm
  rw [hbuffers, List.length_nil, List.range_zero] at hcustody
  have hempty := hcustody.eq_nil
  simp only [places, List.flatten_cons, List.flatten_nil, List.append_eq_nil_iff,
    Option.toList_eq_nil_iff, Option.map_eq_none_iff] at hempty
  exact ⟨hbuffers, hempty.2.1, hempty.2.2.1, hempty.2.2.2.1⟩

/-- A buffer that the producer holds is in no other place. -/
theorem Lined.ne_of_producer {p : Pipeline} (hp : p.Lined) {call : AddCall}
    (hproducer : p.producer = some call) :
    call.pframe < p.buffers.length ∧ ∀ a ∈ p.waiting, a ≠ call.pframe := by
  have hcustody := hp.custody
  simp only [places, hproducer, Option.map_some, Option.toList_some] at hcustody
  have hother := InCustody.head_not_mem [p.pipelineIngress, p.pipelineEgress]
    hcustody List.nodup_range
  refine ⟨List.mem_range.1 (hcustody.mem_tokens (p := [call.pframe]) (by simp) (by simp)), ?_⟩
  rintro a ha rfl
  rcases List.mem_append.1 ha with ha | ha
  · split at ha
    · rename_i b hconsumer
      exact hother [b] (by simp [hconsumer]) ha
    · cases ha
  · exact hother p.pipelineEgress (by simp) ha

theorem copies_places (p : Pipeline) (a : Addr) :
    copies p.places a = p.pipelineIngress.count a + (p.pipelineEgress.count a +
      ((p.producer.map AddCall.pframe).toList.count a +
        (p.consumer.map Prod.fst).toList.count a)) := by
  simp only [places, copies_cons, copies_nil, Nat.add_zero]

/-- A step moves a buffer from one place to another. -/
theorem Lined.custody_step {p q : Pipeline} {a : PipelineAction} (hp : p.Lined)
    (h : PipelineStep p a q) : InCustody q.places (List.range q.buffers.length) := by
  intro b
  have hb := hp.custody b
  rw [copies_places] at hb ⊢
  cases h with
  | started hstarted =>
      obtain ⟨hbuffers, hegress, hproducer, hconsumer⟩ := hp.not_started hstarted
      simp only [hbuffers, hegress, hproducer, hconsumer, List.count_append, List.length_nil,
        List.nil_append, List.length_replicate, List.range_eq_range', List.range'_zero,
        List.count_nil, Option.map_none, Option.toList_none] at hb ⊢
      omega
  | idle hegress => exact hb
  | taken hconsumer hegress =>
      simp only [hconsumer, hegress, List.count_cons, List.count_nil, Option.map_none,
        Option.map_some, Option.toList_none, Option.toList_some] at hb ⊢
      omega
  | passed hconsumer hpframe =>
      simp only [hconsumer] at hb
      exact hb
  | returned hconsumer =>
      simp only [hconsumer, List.count_append, List.count_nil, Option.map_none, Option.map_some,
        Option.toList_none, Option.toList_some] at hb ⊢
      omega
  | dropped hingress => exact hb
  | obtained hproducer hingress =>
      simp only [hproducer, hingress, List.count_cons, List.count_nil, Option.map_none,
        Option.map_some, Option.toList_none, Option.toList_some] at hb ⊢
      omega
  | copied hproducer hpframe hcopy =>
      simp only [hproducer] at hb
      rw [List.length_set]
      exact hb
  | queued hproducer =>
      simp only [hproducer, List.count_append, List.count_nil, Option.map_none, Option.map_some,
        Option.toList_none, Option.toList_some] at hb ⊢
      omega

/-- What a copy leaves in the buffer of the call. -/
theorem Lined.copied_eq {p : Pipeline} (hp : p.Lined) {a : Addr} {frame pframe pixels : Bytes}
    (hpframe : p.buffers[a]? = some pframe) (hcopy : memcpy pframe frame fhdBytes = .ok pixels) :
    pixels = frame.take fhdBytes ∧ pixels.length = fhdBytes := by
  have hsize := hp.buffers_size pframe (List.mem_of_getElem? hpframe)
  obtain ⟨-, hlen, -⟩ := memcpy_eq_ok_iff.1 hcopy
  obtain rfl : frame.take fhdBytes = pixels := by
    simpa [memcpy_full hsize hlen] using hcopy
  exact ⟨rfl, List.length_take_of_le hlen⟩

theorem Lined.buffers_step {p q : Pipeline} {a : PipelineAction} (hp : p.Lined)
    (h : PipelineStep p a q) :
    (q.buffers.length = if q.started then 32 else 0) ∧
      ∀ pixels ∈ q.buffers, pixels.length = fhdBytes := by
  cases h with
  | started hstarted =>
      obtain ⟨hbuffers, -⟩ := hp.not_started hstarted
      refine ⟨by simp [hbuffers], fun pixels hpixels => ?_⟩
      rw [hbuffers, List.nil_append] at hpixels
      rw [List.eq_of_mem_replicate hpixels, List.length_replicate]
  | copied hproducer hpframe hcopy =>
      refine ⟨by rw [List.length_set, hp.buffers_length], fun other hother => ?_⟩
      rcases List.mem_or_eq_of_mem_set hother with hother | rfl
      · exact hp.buffers_size other hother
      · exact (hp.copied_eq hpframe hcopy).2
  | idle _ => exact ⟨hp.buffers_length, hp.buffers_size⟩
  | taken _ _ => exact ⟨hp.buffers_length, hp.buffers_size⟩
  | passed _ _ => exact ⟨hp.buffers_length, hp.buffers_size⟩
  | returned _ => exact ⟨hp.buffers_length, hp.buffers_size⟩
  | dropped _ => exact ⟨hp.buffers_length, hp.buffers_size⟩
  | obtained _ _ => exact ⟨hp.buffers_length, hp.buffers_size⟩
  | queued _ => exact ⟨hp.buffers_length, hp.buffers_size⟩

theorem Lined.filled_step {p q : Pipeline} {a : PipelineAction} (hp : p.Lined)
    (h : PipelineStep p a q) (call : AddCall) (hcall : q.producer = some call)
    (hfilled : call.filled = true) : q.buffers[call.pframe]? = some call.picture := by
  cases h with
  | started hstarted =>
      obtain ⟨-, -, hproducer, -⟩ := hp.not_started hstarted
      rw [hproducer] at hcall
      cases hcall
  | obtained hproducer hingress =>
      cases hcall
      cases hfilled
  | copied hproducer hpframe hcopy =>
      cases hcall
      rw [(hp.copied_eq hpframe hcopy).1]
      exact List.getElem?_set_self (hp.ne_of_producer hproducer).1
  | queued hproducer => cases hcall
  | idle _ => exact hp.filled call hcall hfilled
  | taken _ _ => exact hp.filled call hcall hfilled
  | passed _ _ => exact hp.filled call hcall hfilled
  | returned _ => exact hp.filled call hcall hfilled
  | dropped _ => exact hp.filled call hcall hfilled

/-- The pictures stay in line: a step passes the first one on, or moves the one in a
hand to the next place. -/
theorem Lined.obtained_step {p q : Pipeline} {a : PipelineAction} (hp : p.Lined)
    (h : PipelineStep p a q) :
    q.obtained.map some = q.passed.map some ++ q.waiting.map (fun a => q.buffers[a]?) ++
      (q.producer.map fun call => some call.picture).toList := by
  have heq := hp.obtained_eq
  cases h with
  | started hstarted =>
      obtain ⟨-, hegress, hproducer, hconsumer⟩ := hp.not_started hstarted
      simp only [waiting, hegress, hproducer, hconsumer] at heq
      simpa only [waiting, hproducer, hconsumer, List.append_nil, List.map_nil] using heq
  | idle hegress => exact heq
  | taken hconsumer hegress =>
      refine heq.trans ?_
      simp only [waiting, hconsumer, hegress, List.nil_append, List.cons_append]
  | @passed b pframe hconsumer hpframe =>
      have htake : pframe.take fhdBytes = pframe := by
        rw [← hp.buffers_size pframe (List.mem_of_getElem? hpframe), List.take_length]
      refine heq.trans ?_
      simp only [waiting, hconsumer, List.cons_append, List.nil_append, List.map_cons, hpframe,
        List.map_append, List.map_nil, htake, List.append_assoc]
  | returned hconsumer =>
      refine heq.trans ?_
      simp only [waiting, hconsumer]
  | dropped hingress => exact heq
  | obtained hproducer hingress =>
      simp only [hproducer, Option.map_none, Option.toList_none, List.append_nil] at heq
      simp only [List.map_append, heq]
      rfl
  | @copied b frame pframe pixels hproducer hpframe hcopy =>
      obtain ⟨-, hne⟩ := hp.ne_of_producer hproducer
      have hkeep : p.waiting.map (fun c => (p.buffers.set b pixels)[c]?) =
          p.waiting.map fun c => p.buffers[c]? :=
        List.map_congr_left fun c hc => List.getElem?_set_ne (hne c hc).symm
      rw [hproducer] at heq
      exact heq.trans (congrArg (fun l => p.passed.map some ++ l ++ _) hkeep.symm)
  | queued hproducer =>
      have hpicture := hp.filled _ hproducer rfl
      refine heq.trans ?_
      simp only [hproducer, Option.map_some, Option.toList_some, waiting, List.map_append,
        List.map_cons, List.map_nil, hpicture, Option.map_none, Option.toList_none,
        List.append_nil, List.append_assoc]

theorem Lined.step {p q : Pipeline} {a : PipelineAction} (hp : p.Lined)
    (h : PipelineStep p a q) : q.Lined where
  custody := hp.custody_step h
  buffers_length := (hp.buffers_step h).1
  buffers_size := (hp.buffers_step h).2
  filled := hp.filled_step h
  obtained_eq := hp.obtained_step h

/-- In every run of the two threads, from before the service has started on, each
of the buffers is in exactly one place; there are 32 of them once the service has
started. What was passed to `Device::setFrame` are the first of the pictures of
the calls that found a buffer, in the order of the calls and unmodified, and the
other ones wait in their buffers or are being copied. -/
theorem run_passed {as : List PipelineAction} {p : Pipeline} (h : run step {} as = some p) :
    (∀ a, copies p.places a = if p.started ∧ a < 32 then 1 else 0) ∧
      p.passed <+: p.obtained ∧
      p.obtained.map some = p.passed.map some ++ p.waiting.map (fun a => p.buffers[a]?) ++
        (p.producer.map fun call => some call.picture).toList := by
  have hp : p.Lined :=
    run_preserves (fun _ _ _ hs hstep => hs.step (step_spec hstep)) start_lined h
  refine ⟨fun a => ?_, ?_, hp.obtained_eq⟩
  · rw [hp.custody.copies_eq_ite, hp.buffers_length]
    cases p.started with
    | false => rfl
    | true => simp only [if_true, true_and]
  · have heq := hp.obtained_eq
    rw [List.append_assoc] at heq
    obtain ⟨l₁, l₂, hobtained, hpassed, -⟩ := List.map_eq_append_iff.1 heq
    rw [hobtained, List.map_injective_iff.2 (Option.some_injective _) hpassed]
    exact List.prefix_append p.passed l₂

theorem step_addCopy {p : Pipeline} {a : Addr} {frame pframe : Bytes}
    (hproducer : p.producer = some ⟨a, frame, fhdBytes, false⟩)
    (hpframe : p.buffers[a]? = some pframe) (hsize : pframe.length = fhdBytes)
    (hframe : fhdBytes ≤ frame.length) :
    p.step .addCopy = some { p with
      buffers := p.buffers.set a (frame.take fhdBytes)
      producer := some ⟨a, frame, fhdBytes, true⟩ } := by
  simp only [step, hproducer, hpframe, min_self, memcpy_full hsize hframe, ne_eq, not_true,
    if_false]

/-- One frame goes through the pipeline. -/
theorem run_passed_single :
    ∃ p, run step {}
        [.serviceStart, .addPop (List.replicate fhdBytes 1) fhdBytes, .addCopy, .addPush,
          .servicePop, .serviceSetFrame] = some p ∧
      p.passed.length = 1 ∧ p.passed <+: p.obtained ∧
      ∀ a, copies p.places a = if p.started ∧ a < 32 then 1 else 0 := by
  obtain ⟨p, hp, hproducer, hpframe, hconsumer, hegress, hstarted, hpassed⟩ :
      ∃ p, run step {} [.serviceStart, .addPop (List.replicate fhdBytes 1) fhdBytes] = some p ∧
        p.producer = some ⟨0, List.replicate fhdBytes 1, fhdBytes, false⟩ ∧
        p.buffers[0]? = some (List.replicate fhdBytes 0) ∧ p.consumer = none ∧
        p.pipelineEgress = [] ∧ p.started = true ∧ p.passed = [] :=
    ⟨_, rfl, rfl, rfl, rfl, rfl, rfl, rfl⟩
  have hcopy := step_addCopy hproducer hpframe List.length_replicate List.length_replicate.ge
  obtain ⟨hlt, -⟩ := List.getElem?_eq_some_iff.1 hpframe
  obtain ⟨q, hq, hlength⟩ :
      ∃ q, run step p [.addCopy, .addPush, .servicePop, .serviceSetFrame] = some q ∧
        q.passed.length = 1 := by
    simp only [run, hcopy, Option.bind_some]
    simp [step, hconsumer, hegress, hstarted, hpassed, hlt]
  have hrun : run step {} ([.serviceStart, .addPop (List.replicate fhdBytes 1) fhdBytes] ++
      [.addCopy, .addPush, .servicePop, .serviceSetFrame]) = some q := (run_append hp).trans hq
  obtain ⟨hcopies, hpassed', -⟩ := run_passed hrun
  exact ⟨q, hrun, hlength, hpassed', hcopies⟩

end Pipeline

end Bres
