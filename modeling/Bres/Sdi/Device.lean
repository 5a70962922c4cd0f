import Bres.Sdi.Pipeline
import Bres.Sdi.Fifo

/-!
# Devices that come and go

The `Device` class of `src/bm.cc`, which DeckLink tells of the devices that are
plugged in and out. The arrival counter decides which arrival gets an output:
the first one only, as it never goes down. The constructor of that output aborts
where a DeckLink call fails, as it does for a device that cannot play. A removal erases the
outputs of its link. Both callbacks first read the two names of the device and do nothing
where that fails. `Device::setFrame` aborts where there is no output of the given number.

`Plugs` runs a `Device` under any history of arrivals, removals and frames.
`Stage` follows the history alone: whether a device has arrived that was given
the output, and whether it has been removed again.
-/

namespace Bres

open Transition

/-- The members of `Device` that the notifications change. -/
structure Device where
  outputs : List Output := []
  cnt : ℕ := 0

namespace Device

/-- `new Output`, for the display mode of the device, or `none` where `clock_gettime` or one of
`QueryInterface`, `GetDisplayMode`, `EnableVideoOutput`, `EnableAudioOutput`,
`CreateVideoFrame` and `ScheduleVideoFrame` fails in the constructor, which is a `PANIC`. -/
def newOutput (d : Device) (link : Link) : Option DisplayMode → Except Fault Device
  | none => .error .panic
  | some mode => .ok { d with outputs := d.outputs ++ [Output.new link mode] }

/-- `Device::DeckLinkDeviceArrived`, where `GetDisplayName` and `GetModelName` succeed or
not. -/
def deckLinkDeviceArrived (d : Device) (link : Link) (mode : Option DisplayMode)
    (named : Bool) : Except Fault Device :=
  if named then do
    let d ← if d.cnt = 0 then d.newOutput link mode else .ok d
    return { d with cnt := (d.cnt + 1) % unsignedRange }
  else return d

/-- `Device::DeckLinkDeviceRemoved` -/
def deckLinkDeviceRemoved (d : Device) (link : Link) (named : Bool) : Device :=
  if named then { d with outputs := d.outputs.filter fun o => o.link ≠ link } else d

/-- `Device::setFrame`. The code that the output returns is ignored. -/
def setFrame (d : Device) (id : ℕ) (frame : Bytes) (framelen width height : ℕ) :
    Except Fault Device :=
  match d.outputs[id]? with
  | none => .error .panic
  | some o => do
      let (_, o) ← o.setFrame frame framelen width height
      return { d with outputs := d.outputs.set id o }

/-- The links of the outputs. -/
def links (d : Device) : List Link := d.outputs.map Output.link

@[simp] theorem links_eq_nil_iff {d : Device} : d.links = [] ↔ d.outputs = [] :=
  List.map_eq_nil_iff

@[simp] theorem deckLinkDeviceRemoved_unnamed (d : Device) (link : Link) :
    d.deckLinkDeviceRemoved link false = d := rfl

/-- The arrival makes no output, or its constructor succeeds. -/
def Opens (d : Device) (mode : Option DisplayMode) (named : Bool) : Prop :=
  named = true → d.cnt = 0 → mode.isSome

/-- The outputs and the counter after an arrival: a device that can be named gets an output if
it is the first one. -/
structure Gains (d d' : Device) (link : Link) (named : Bool) : Prop where
  links_eq : d'.links = if named = true ∧ d.cnt = 0 then d.links ++ [link] else d.links
  cnt_eq : d'.cnt = if named then (d.cnt + 1) % unsignedRange else d.cnt

theorem deckLinkDeviceArrived_spec (d : Device) (link : Link) (mode : Option DisplayMode)
    (named : Bool) :
    (d.deckLinkDeviceArrived link mode named = .error .panic ∧ ¬ d.Opens mode named) ∨
      ∃ d', d.deckLinkDeviceArrived link mode named = .ok d' ∧ d.Opens mode named ∧
        d.Gains d' link named := by
  cases named with
  | false => exact .inr ⟨d, rfl, nofun, by simp, rfl⟩
  | true =>
      by_cases hcnt : d.cnt = 0
      · cases mode with
        | none =>
            refine .inl ⟨by simp [deckLinkDeviceArrived, hcnt, newOutput, bind, Except.bind], ?_⟩
            exact fun hopens => by cases hopens rfl hcnt
        | some mode =>
            refine .inr ⟨_, by simp [deckLinkDeviceArrived, hcnt, newOutput, bind, Except.bind,
              pure, Except.pure]; rfl, fun _ _ => rfl, ?_, ?_⟩
            · simp [links, hcnt, Output.new_link]
            · simp [hcnt]
      · refine .inr ⟨{ d with cnt := (d.cnt + 1) % unsignedRange }, ?_, fun _ h => absurd h hcnt,
          ?_, ?_⟩
        · simp [deckLinkDeviceArrived, hcnt, bind, Except.bind, pure, Except.pure]
        · simp [links, hcnt]
        · simp

theorem deckLinkDeviceRemoved_named (d : Device) (link : Link) :
    (d.deckLinkDeviceRemoved link true).links = d.links.filter (· ≠ link) := by
  simp only [deckLinkDeviceRemoved, links, if_true, List.filter_map]
  rfl

theorem Gains.mem_links {d d' : Device} {player link : Link} {named : Bool}
    (hgains : d.Gains d' link named) (h : player ∈ d.links) : player ∈ d'.links := by
  rw [hgains.links_eq]
  split
  · exact List.mem_append_left _ h
  · exact h

theorem mem_links_of_removed {d : Device} {player link : Link} {named : Bool}
    (h : player ∈ d.links) (hne : named = true → player ≠ link) :
    player ∈ (d.deckLinkDeviceRemoved link named).links := by
  cases named with
  | false => exact h
  | true =>
      rw [deckLinkDeviceRemoved_named]
      exact List.mem_filter.2 ⟨h, by simpa using hne rfl⟩

/-- A frame leaves the outputs where they are; there must be one. -/
theorem setFrame_spec (d : Device) (frame : Bytes) (framelen width height : ℕ) :
    (d.setFrame 0 frame framelen width height = .error .panic ∧ d.links = []) ∨
      d.setFrame 0 frame framelen width height = .error .bufferOverflow ∨
      ∃ d', d.setFrame 0 frame framelen width height = .ok d' ∧ d.links ≠ [] ∧
        d'.links = d.links ∧ d'.cnt = d.cnt := by
  cases houtputs : d.outputs with
  | nil => exact .inl ⟨by simp [setFrame, houtputs], by simp [houtputs]⟩
  | cons o os =>
      refine .inr ?_
      cases hset : o.setFrame frame framelen width height with
      | error e =>
          have he : e = .bufferOverflow := by
            unfold Output.setFrame at hset
            split at hset
            · cases hset
            · cases hfill : o.linkOutput.fill _ frame framelen with
              | error e' =>
                  rw [hfill] at hset
                  cases hset
                  exact LinkOutput.fill_eq_error hfill
              | ok l =>
                  rw [hfill] at hset
                  cases hset
          left
          simp [setFrame, houtputs, hset, he, bind, Except.bind]
      | ok r =>
          have hlink : r.2.link = o.link := by
            obtain ⟨-, rfl⟩ | ⟨f, fs, l, -, -, rfl⟩ := Output.setFrame_eq_ok_iff.1 hset
            · rfl
            · rfl
          right
          refine ⟨{ d with outputs := r.2 :: os }, ?_, ?_, ?_, rfl⟩
          · simp [setFrame, houtputs, hset, bind, Except.bind, pure, Except.pure]
          · simp [houtputs]
          · simp [links, houtputs, hlink]

end Device

/-- How far a history has come: no device has arrived that could be named, the
first such device is there, or it has been removed. -/
inductive Stage where
  | waiting
  | playing (link : Link)
  | stopped
deriving DecidableEq

/-- What DeckLink and the service thread do with a device. -/
inductive DeviceAction where
  | arrived (link : Link) (mode : Option DisplayMode) (named : Bool)
  | removed (link : Link) (named : Bool)
  | frame (pframe : Bytes)

/-- The stage after an action. -/
def Stage.after : Stage → DeviceAction → Stage
  | .waiting, .arrived link _ true => .playing link
  | .playing player, .removed link true => if link = player then .stopped else .playing player
  | stage, _ => stage

namespace Stage

@[simp] theorem after_arrived_unnamed (stage : Stage) (link : Link)
    (mode : Option DisplayMode) : stage.after (.arrived link mode false) = stage := by
  cases stage <;> rfl

@[simp] theorem after_removed_unnamed (stage : Stage) (link : Link) :
    stage.after (.removed link false) = stage := by
  cases stage <;> rfl

@[simp] theorem after_frame (stage : Stage) (pframe : Bytes) :
    stage.after (.frame pframe) = stage := by
  cases stage <;> rfl

end Stage

/-- A `Device` with the devices that are present, the number of arrivals counted
and the stage of the history. No step of the program reads these three. -/
structure Plugs where
  device : Device := {}
  aborted : Bool := false
  present : List Link := []
  arrivals : ℕ := 0
  stage : Stage := .waiting

namespace Plugs

/-- A notification, or a frame of `bm_pipeline_service`. A device arrives when it
is not there and is removed when it is. -/
def step (s : Plugs) (a : DeviceAction) : Option Plugs :=
  if s.aborted then none
  else
    let t := { s with stage := s.stage.after a }
    match a with
    | .arrived link mode named =>
        if link ∈ s.present then none
        else
          match s.device.deckLinkDeviceArrived link mode named with
          | .error _ => some { t with aborted := true }
          | .ok device =>
              some { t with
                device := device
                present := link :: s.present
                arrivals := if named then s.arrivals + 1 else s.arrivals }
    | .removed link named =>
        if link ∈ s.present then
          some { t with
            device := s.device.deckLinkDeviceRemoved link named
            present := s.present.filter fun other => other ≠ link }
        else none
    | .frame pframe =>
        match s.device.setFrame 0 pframe fhdBytes wndWidthFhd wndHeightFhd with
        | .error .panic => some { t with aborted := true }
        | .error _ => none
        | .ok device => some { t with device := device }

/-- The program has not aborted, and there is an output whenever a device is
present. -/
def Playable (s : Plugs) : Prop :=
  s.aborted = false ∧ (s.present ≠ [] → s.device.outputs ≠ [])

/-- The histories that the code supports: the first device that arrives can be
named; an output that an arrival makes can be made; when that device is removed, no other
device is present; after that none arrives; and frames come only while it is there. -/
def Supported (s : Plugs) : DeviceAction → Prop
  | .arrived _ mode named =>
      s.device.Opens mode named ∧
        match s.stage with
        | .waiting => named = true
        | .playing _ => True
        | .stopped => False
  | .removed link named =>
      s.stage = .playing link → named = true → ∀ other ∈ s.present, other = link
  | .frame _ => ∃ link, s.stage = .playing link

end Plugs

/-- What a step of the history can do. -/
inductive PlugStep : Plugs → DeviceAction → Plugs → Prop where
  | failed {s : Plugs} {link : Link} {mode : Option DisplayMode} {named : Bool}
      (hopens : ¬ s.device.Opens mode named) :
      PlugStep s (.arrived link mode named)
        { s with aborted := true, stage := s.stage.after (.arrived link mode named) }
  | arrived {s : Plugs} {link : Link} {mode : Option DisplayMode} {named : Bool}
      {device : Device} (haborted : s.aborted = false) (hopens : s.device.Opens mode named)
      (hgains : s.device.Gains device link named) :
      PlugStep s (.arrived link mode named)
        { s with
          device := device
          present := link :: s.present
          arrivals := if named then s.arrivals + 1 else s.arrivals
          stage := s.stage.after (.arrived link mode named) }
  | removed {s : Plugs} {link : Link} {named : Bool} (haborted : s.aborted = false) :
      PlugStep s (.removed link named)
        { s with
          device := s.device.deckLinkDeviceRemoved link named
          present := s.present.filter fun other => other ≠ link
          stage := s.stage.after (.removed link named) }
  | panicked {s : Plugs} {pframe : Bytes} (hlinks : s.device.links = []) :
      PlugStep s (.frame pframe) { s with aborted := true, stage := s.stage.after (.frame pframe) }
  | framed {s : Plugs} {pframe : Bytes} {device : Device} (haborted : s.aborted = false)
      (hlinks : s.device.links ≠ []) (hkeep : device.links = s.device.links)
      (hcnt : device.cnt = s.device.cnt) :
      PlugStep s (.frame pframe) { s with device := device, stage := s.stage.after (.frame pframe) }

namespace Plugs

theorem step_spec {s t : Plugs} {a : DeviceAction} (h : s.step a = some t) : PlugStep s a t := by
  unfold step at h
  split at h
  · cases h
  · rename_i haborted
    have haborted := Bool.eq_false_iff.2 haborted
    cases a with
    | arrived link mode named =>
        obtain ⟨-, h⟩ := Option.ite_none_left_eq_some.1 h
        obtain ⟨harrived, hopens⟩ | ⟨d, harrived, hopens, hgains⟩ :=
          s.device.deckLinkDeviceArrived_spec link mode named
        · simp only [harrived, Option.some.injEq] at h
          subst h
          exact .failed hopens
        · simp only [harrived, Option.some.injEq] at h
          subst h
          exact .arrived haborted hopens hgains
    | removed link named =>
        simp only at h
        split at h
        · cases h
          exact .removed haborted
        · cases h
    | frame pframe =>
        obtain ⟨hset, hlinks⟩ | hset | ⟨d, hset, hlinks, hkeep, hcnt⟩ :=
          s.device.setFrame_spec pframe fhdBytes wndWidthFhd wndHeightFhd
        · simp only [hset, Option.some.injEq] at h
          subst h
          exact .panicked hlinks
        · simp [hset] at h
        · simp only [hset, Option.some.injEq] at h
          subst h
          exact .framed haborted hlinks hkeep hcnt

/-- What supported histories keep: an output of the first device is there while
the device is, and otherwise no device is present. -/
def Kept (s : Plugs) : Prop :=
  s.aborted = false ∧
    match s.stage with
    | .waiting => s.present = [] ∧ s.device.cnt = 0
    | .playing link => link ∈ s.device.links
    | .stopped => s.present = []

theorem Kept.playable {s : Plugs} (hs : s.Kept) : s.Playable := by
  refine ⟨hs.1, fun hpresent houtputs => ?_⟩
  have hstage := hs.2
  cases hstage' : s.stage with
  | waiting =>
      rw [hstage'] at hstage
      exact hpresent hstage.1
  | playing link =>
      rw [hstage', Device.links, houtputs] at hstage
      cases hstage
  | stopped =>
      rw [hstage'] at hstage
      exact hpresent hstage

variable {s t : Plugs} {link : Link} {mode : Option DisplayMode} {named : Bool}
  {pframe : Bytes}

theorem Kept.arrived (hs : s.Kept) (ha : s.Supported (.arrived link mode named))
    (h : PlugStep s (.arrived link mode named) t) : t.Kept := by
  obtain ⟨haborted, hstage⟩ := hs
  obtain ⟨hopens, ha⟩ := ha
  cases h with
  | failed hnot => exact absurd hopens hnot
  | arrived _ _ hgains =>
      refine ⟨haborted, ?_⟩
      cases hstage' : s.stage with
      | waiting =>
          rw [hstage'] at hstage ha
          obtain rfl : named = true := ha
          simp [Stage.after, hgains.links_eq, hstage.2]
      | playing player =>
          rw [hstage'] at hstage
          exact hgains.mem_links hstage
      | stopped =>
          rw [hstage'] at ha
          cases ha

theorem Kept.removed (hs : s.Kept) (ha : s.Supported (.removed link named))
    (h : PlugStep s (.removed link named) t) : t.Kept := by
  obtain ⟨haborted, hstage⟩ := hs
  cases h with
  | removed _ =>
      refine ⟨haborted, ?_⟩
      cases hstage' : s.stage with
      | waiting =>
          rw [hstage'] at hstage
          have hcnt : (s.device.deckLinkDeviceRemoved link named).cnt = 0 := by
            cases named <;> exact hstage.2
          simp [Stage.after, hstage.1, hcnt]
      | playing player =>
          rw [hstage'] at hstage
          by_cases hgone : named = true ∧ link = player
          · obtain ⟨rfl, rfl⟩ := hgone
            simpa [Stage.after] using ha hstage' rfl
          · have hmem : player ∈ (s.device.deckLinkDeviceRemoved link named).links :=
              Device.mem_links_of_removed hstage fun hnamed hlink => hgone ⟨hnamed, hlink.symm⟩
            cases named with
            | false => simpa using hmem
            | true =>
                have hne : link ≠ player := fun hlink => hgone ⟨rfl, hlink⟩
                simpa [Stage.after, hne] using hmem
      | stopped =>
          rw [hstage'] at hstage
          simp [Stage.after, hstage]

theorem Kept.framed (hs : s.Kept) (ha : s.Supported (.frame pframe))
    (h : PlugStep s (.frame pframe) t) : t.Kept := by
  obtain ⟨haborted, hstage⟩ := hs
  obtain ⟨player, hplaying⟩ := ha
  rw [hplaying] at hstage
  cases h with
  | panicked hlinks =>
      rw [hlinks] at hstage
      cases hstage
  | framed _ hlinks hkeep hcnt =>
      refine ⟨haborted, ?_⟩
      simpa [hplaying, hkeep] using hstage

theorem Kept.step {a : DeviceAction} (hs : s.Kept) (ha : s.Supported a) (h : PlugStep s a t) :
    t.Kept := by
  cases a with
  | arrived link mode named => exact hs.arrived ha h
  | removed link named => exact hs.removed ha h
  | frame pframe => exact hs.framed ha h

/-- Where the arrival counter has not wrapped, the outputs are those of the first
device, as long as the history has it playing. -/
def Tracked (s : Plugs) : Prop :=
  s.device.cnt = s.arrivals ∧
    match s.stage with
    | .waiting => s.arrivals = 0 ∧ s.device.links = []
    | .playing link => 0 < s.arrivals ∧ s.device.links = [link]
    | .stopped => 0 < s.arrivals ∧ s.device.links = []

theorem Tracked.arrived (hs : s.Tracked) (ht : t.arrivals < unsignedRange)
    (hrunning : t.aborted = false) (h : PlugStep s (.arrived link mode named) t) :
    t.Tracked := by
  obtain ⟨hcnt, hstage⟩ := hs
  cases h with
  | failed => cases hrunning
  | arrived _ _ hgains =>
      obtain ⟨hlinks, hcnt'⟩ := hgains
      cases named with
      | false =>
          simp only [Bool.false_eq_true, false_and, if_false] at hlinks hcnt'
          exact ⟨hcnt'.trans hcnt, by simpa [hlinks] using hstage⟩
      | true =>
          simp only [true_and, if_true] at hlinks hcnt'
          have hlt : s.arrivals + 1 < unsignedRange := by
            simpa using ht
          refine ⟨?_, ?_⟩
          · simpa [hcnt', hcnt] using Nat.mod_eq_of_lt hlt
          · cases hstage' : s.stage with
            | waiting =>
                rw [hstage'] at hstage
                simp [Stage.after, hlinks, hcnt, hstage.1, hstage.2]
            | playing player =>
                rw [hstage'] at hstage
                simp [Stage.after, hlinks, hcnt, hstage.1.ne', hstage.2]
            | stopped =>
                rw [hstage'] at hstage
                simp [Stage.after, hlinks, hcnt, hstage.1.ne', hstage.2]

theorem Tracked.removed (hs : s.Tracked) (h : PlugStep s (.removed link named) t) :
    t.Tracked := by
  obtain ⟨hcnt, hstage⟩ := hs
  cases h with
  | removed _ =>
      cases named with
      | false => exact ⟨hcnt, by simpa using hstage⟩
      | true =>
          have hlinks := s.device.deckLinkDeviceRemoved_named link
          refine ⟨hcnt, ?_⟩
          cases hstage' : s.stage with
          | waiting =>
              rw [hstage'] at hstage
              simp [Stage.after, hlinks, hstage.1, hstage.2]
          | playing player =>
              rw [hstage'] at hstage
              by_cases hlink : link = player
              · subst hlink
                have hnil : (s.device.deckLinkDeviceRemoved link true).links = [] := by
                  rw [hlinks, hstage.2]
                  simp
                simp [Stage.after, hstage.1, Device.links_eq_nil_iff.1 hnil]
              · simp [Stage.after, hlinks, hstage.1, hstage.2, hlink, Ne.symm hlink]
          | stopped =>
              rw [hstage'] at hstage
              simp [Stage.after, hlinks, hstage.1, hstage.2]

theorem Tracked.framed (hs : s.Tracked) (h : PlugStep s (.frame pframe) t) : t.Tracked := by
  obtain ⟨hcnt, hstage⟩ := hs
  cases h with
  | panicked hlinks => exact ⟨hcnt, by simpa only [Stage.after_frame] using hstage⟩
  | framed _ hlinks hkeep hcnt' =>
      exact ⟨hcnt'.trans hcnt, by simpa only [Stage.after_frame, hkeep] using hstage⟩

theorem Tracked.step {a : DeviceAction} (hs : s.Tracked) (ht : t.arrivals < unsignedRange)
    (hrunning : t.aborted = false) (h : PlugStep s a t) : t.Tracked := by
  cases a with
  | arrived link mode named => exact hs.arrived ht hrunning h
  | removed link named => exact hs.removed h
  | frame pframe => exact hs.framed h

/-- A step that is not supported aborts the program, or leaves a device without an
output. -/
theorem Tracked.supported {s t : Plugs} {a : DeviceAction} (hs : s.Tracked)
    (h : PlugStep s a t) (ht : t.Playable) : s.Supported a := by
  obtain ⟨hcnt, hstage⟩ := hs
  obtain ⟨haborted, houtputs⟩ := ht
  cases h with
  | failed => cases haborted
  | @arrived link mode named device _ hopens hgains =>
      have hlinks := mt Device.links_eq_nil_iff.1 (houtputs (List.cons_ne_nil link s.present))
      refine ⟨hopens, ?_⟩
      cases hstage' : s.stage with
      | waiting =>
          rw [hstage'] at hstage
          cases named with
          | false =>
              rw [hgains.links_eq, if_neg (by simp), hstage.2] at hlinks
              exact absurd rfl hlinks
          | true => rfl
      | playing player => trivial
      | stopped =>
          rw [hstage'] at hstage
          have hcounted : s.device.cnt ≠ 0 := by
            rw [hcnt]
            exact hstage.1.ne'
          rw [hgains.links_eq, if_neg fun h => hcounted h.2, hstage.2] at hlinks
          exact absurd rfl hlinks
  | @removed link named _ =>
      intro hplaying hnamed other hother
      subst hnamed
      by_contra hne
      have hmem : other ∈ s.present.filter fun o => o ≠ link :=
        List.mem_filter.2 ⟨hother, by simpa using hne⟩
      have hlinks := mt Device.links_eq_nil_iff.1 (houtputs (List.ne_nil_of_mem hmem))
      rw [hplaying] at hstage
      apply hlinks
      rw [Device.deckLinkDeviceRemoved_named, hstage.2]
      simp
  | panicked hlinks => cases haborted
  | framed _ hlinks hkeep hcnt' =>
      cases hstage' : s.stage with
      | waiting =>
          rw [hstage'] at hstage
          exact absurd hstage.2 hlinks
      | playing link => exact ⟨link, hstage'⟩
      | stopped =>
          rw [hstage'] at hstage
          exact absurd hstage.2 hlinks

theorem Tracked.start : Tracked {} := ⟨rfl, rfl, rfl⟩

theorem Kept.start : Kept {} := ⟨rfl, rfl, rfl⟩

/-- Every action counts one arrival at most. -/
theorem always_arrivals_lt {as : List DeviceAction} {s : Plugs}
    (h : s.arrivals + as.length < unsignedRange) :
    Always step (fun t => t.arrivals < unsignedRange) s as := by
  induction as generalizing s with
  | nil => exact h
  | cons a as ih =>
      rw [List.length_cons] at h
      refine ⟨by omega, fun t ht => ih ?_⟩
      have hle : t.arrivals ≤ s.arrivals + 1 := by
        cases step_spec ht with
        | failed => exact Nat.le_succ _
        | @arrived link mode named _ => cases named <;> simp
        | removed _ => exact Nat.le_succ _
        | panicked _ => exact Nat.le_succ _
        | framed _ _ _ _ => exact Nat.le_succ _
      omega

/-- A supported history keeps an output as long as a device is present, and neither an arrival
nor a frame aborts the program. The other way round, a history too short for the
arrival counter to wrap in which every state is like that is a supported one. -/
theorem run_playable {as : List DeviceAction} {t : Plugs} (h : run step {} as = some t) :
    (Along step Supported {} as → Always step Playable {} as) ∧
      (as.length < unsignedRange → Always step Playable {} as → Along step Supported {} as) := by
  constructor
  · intro hsupported
    have hkept : Always step Kept {} as :=
      hsupported.always (fun _ _ _ hs ha hstep => hs.step ha (step_spec hstep)) .start
    exact hkept.mono fun _ hs => hs.playable
  · intro hlength hplayable
    have hboth := hplayable.and (always_arrivals_lt (s := {}) (by simpa using hlength))
    exact hboth.along (fun _ _ _ hs _ hstep ht => Tracked.step hs ht.2 ht.1.1 (step_spec hstep))
      (fun _ _ _ hs _ hstep ht => Tracked.supported hs (step_spec hstep) ht.1) .start h

/-- A device is plugged in, another one after it, and both are removed, the second
one first. -/
theorem run_playable_pair :
    ∃ t, run step {} [.arrived 0 (some .pixel) true, .arrived 1 (some .pixel) true, .removed 1 true,
        .removed 0 true] = some t ∧
      Always step Playable {} [.arrived 0 (some .pixel) true, .arrived 1 (some .pixel) true,
        .removed 1 true, .removed 0 true] := by
  obtain ⟨t, ht⟩ : ∃ t, run step {} [.arrived 0 (some .pixel) true, .arrived 1 (some .pixel) true,
      .removed 1 true, .removed 0 true] = some t := ⟨_, rfl⟩
  refine ⟨t, ht, (run_playable ht).1 ⟨⟨fun _ _ => rfl, rfl⟩, ?_⟩⟩
  rintro _ ⟨⟩
  refine ⟨⟨fun _ _ => rfl, trivial⟩, ?_⟩
  rintro _ ⟨⟩
  refine ⟨by simp [Supported, Stage.after], ?_⟩
  rintro _ ⟨⟩
  exact ⟨by simp [Supported, Stage.after], fun _ _ => trivial⟩

/-- A device is swapped for another one, and a frame follows. -/
theorem run_swap_aborts :
    ∃ s t, run step {} [.arrived 0 (some .pixel) true, .removed 0 true,
        .arrived 1 (some .pixel) true] = some s ∧ s.present = [1] ∧ s.device.outputs = [] ∧
      s.step (.frame (List.replicate fhdBytes 0)) = some t ∧ t.aborted = true :=
  ⟨_, _, rfl, rfl, rfl, rfl, rfl⟩

end Plugs

end Bres
