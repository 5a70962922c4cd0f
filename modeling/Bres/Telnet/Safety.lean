import Bres.Pool.Property
import Bres.Telnet.Recv

/-!
# What a telnet client can bring down

A command is handled safely if its handler returns, and if a field that is missing,
of the wrong type, or not a number leaves every slot as it was. The handlers check
that keys are present and convert the values later, so a value of the wrong type
throws, in an add of a channel after the slot has been claimed. The property command
reads numbers with `atoi` and `atof`, which take any text for a number.

`Tolerates` collects, command by command, what is handled safely.
-/

namespace Bres

open Transition

/-- The text is a number of the kind that the attribute is read as. -/
def ReadsAsNumber (key text : String) : Prop :=
  if key = "is_draw" then (scanInt text).isSome else (scanFloat text).isSome

/-- Some attribute of a property command is not a string, or not a number. -/
def UnreadableAttribute (json : Json) : Prop :=
  ∃ key ∈ attributeKeys, ∃ v, json.find key = some v ∧
    ∀ text, v = .string text → ¬ ReadsAsNumber key text

/-- A field of the command is missing, of the wrong type, or not a number. -/
def Malformed (json : Json) : EventType → Prop
  | .subscribeAddChannel => ∃ key ∈ addChannelKeys, json.text key = none
  | .subscribeDeleteChannel => json.text "channel_id" = none
  | .subscribePropertyChannel => json.text "channel_id" = none ∨ UnreadableAttribute json
  | .resourceAddStaticImage =>
      (∃ key ∈ addImageKeys, json.text key = none) ∨
        ∃ key ∈ ["pos_x", "pos_y"], ∃ text e, json.HasString key text ∧ stof text = .error e
  | .resourceDeleteStaticImage => json.text "path" = none
  | _ => False

/-- The outcome of a command that returns, and changes no slot if it is malformed. -/
def Safe (malformed : Prop) (pool : Pool) (o : Outcome Exn Pool) : Prop :=
  o.IsDone ∧ (malformed → ∀ i, o.state.slot i = pool.slot i)

/-- What the command handlers take without harm. -/
def Tolerates (P : Platform) (env : Answers) (json : Json) (pool : Pool) : EventType → Prop
  | .subscribeAddChannel =>
      pool.Rejects addChannelKeys json ∨
        ((∀ key ∈ addChannelKeys, ∃ text, json.HasString key text) ∧
          ∀ i : Fin instanceMax, pool.freeIndex = i →
            (pool.slot i).eventDispatchThread = .none ∧ env.Survives (pool.slot i))
  | .subscribeDeleteChannel =>
      json.StringOrAbsent "channel_id" ∧ ∀ i,
        json.HasString "channel_id" (pool.slot i).channelId →
          (pool.slot i).eventDispatchThread = .joinable
  | .subscribePropertyChannel =>
      json.StringOrAbsent "channel_id" ∧ ∀ i,
        json.HasString "channel_id" (pool.slot i).channelId →
          pool.FirstToRemember (pool.slot i).channelId i →
            (∀ key ∈ attributeKeys, json.StringOrAbsent key) ∧
              (UnreadableAttribute json → (pool.slot i).withAttributes json = pool.slot i)
  | .resourceAddStaticImage =>
      pool.Rejects addImageKeys json ∨
        ∃ path posX posY, json.HasString "path" path ∧ json.HasString "pos_x" posX ∧
          json.HasString "pos_y" posY ∧
            ∀ image, env.stbiLoad path = some image →
              (∃ x y, stof posX = .ok x ∧ stof posY = .ok y) ∧ env.Copies P image
  | .resourceDeleteStaticImage => json.StringOrAbsent "path"
  | _ => True

variable {P : Platform} {env : Answers} {ev : Bytes} {json : Json} {pool : Pool}

theorem safe_kept (malformed : Prop) : Safe malformed pool (.done pool) :=
  ⟨⟨pool, rfl⟩, fun _ _ => rfl⟩

theorem not_safe_thrown {malformed : Prop} {e : Exn} {pool' : Pool} :
    ¬ Safe malformed pool (.thrown e pool') := fun h => Outcome.not_isDone_thrown _ _ h.1

theorem Json.text_ne_none_iff {key : String} :
    json.text key ≠ none ↔ ∃ text, json.HasString key text := by
  rw [Option.ne_none_iff_exists']
  exact exists_congr fun text => Json.text_eq_some_iff ..

/-- Some key has no text exactly if not all of them have one. -/
theorem Json.exists_text_eq_none_iff {keys : List String} :
    (∃ key ∈ keys, json.text key = none) ↔
      ¬ ∀ key ∈ keys, ∃ text, json.HasString key text := by
  simp only [← Json.text_ne_none_iff, not_forall, not_not, exists_prop]

theorem addChannel_safe_iff (hsound : ∀ i, (pool.slot i).Sound)
    (hparse : P.parse ev = some json) :
    Safe (Malformed json .subscribeAddChannel) pool
        (subscribeSideAddChannel P.parse ev env pool) ↔
      Tolerates P env json pool .subscribeAddChannel := by
  by_cases hrejects : pool.Rejects addChannelKeys json
  · rw [addChannel_of_rejects hparse hrejects]
    exact iff_of_true (safe_kept _) (.inl hrejects)
  obtain ⟨i, id, token, multi, server, hindex, hid, htoken, hmulti, hserver, hadd⟩ :=
    addChannel_of_not_rejects hparse hrejects env
  rw [hadd]
  constructor
  · rintro ⟨⟨pool', hdone⟩, -⟩
    obtain ⟨r, hopen, -⟩ := (Outcome.mapState_eq_done_iff ..).1 hdone
    obtain ⟨_, _, _, _, rfl, rfl, rfl, rfl, hsurvives, hthread, -⟩ :=
      openChannel_eq_done_iff.1 hopen
    refine .inr ⟨?_, fun j hj => ?_⟩
    · simp only [addChannelKeys, List.forall_mem_cons]
      exact ⟨⟨_, hid⟩, ⟨_, htoken⟩, ⟨_, hmulti⟩, ⟨_, hserver⟩, List.forall_mem_nil _⟩
    · obtain rfl : i = j := Fin.ext (hindex.symm.trans hj)
      exact ⟨hthread, hsurvives⟩
  · rintro (h | ⟨hstrings, hfit⟩)
    · exact absurd h hrejects
    have hwell : ¬ Malformed json .subscribeAddChannel := fun hmalformed =>
      Json.exists_text_eq_none_iff.1 hmalformed hstrings
    simp only [addChannelKeys, List.forall_mem_cons] at hstrings
    obtain ⟨⟨id', hid'⟩, ⟨token', htoken'⟩, ⟨multi', hmulti'⟩, ⟨server', hserver'⟩, -⟩ := hstrings
    obtain rfl := Option.some.inj (hid.symm.trans hid')
    obtain rfl := Option.some.inj (htoken.symm.trans htoken')
    obtain rfl := Option.some.inj (hmulti.symm.trans hmulti')
    obtain rfl := Option.some.inj (hserver.symm.trans hserver')
    obtain ⟨hdispatch, hsurvives⟩ := hfit i hindex
    have hopen : openChannel (.string id') (.string token') (.string multi')
        (.string server') env (pool.slot i) pool.shared =
          .done (openedChannel id' token' multi' env (pool.slot i),
            env.texture :: pool.shared) :=
      openChannel_eq_done_iff.2 ⟨id', token', multi', server', rfl, rfl, rfl, rfl, hsurvives,
        hdispatch, (hsound i).websocketsThread_eq.trans hdispatch, rfl⟩
    exact ⟨⟨_, Family.visit_eq_done hopen⟩, fun hmalformed => absurd hmalformed hwell⟩

/-- A delete or a property command looks its name up first. -/
theorem named_cases (key : String) (json : Json) :
    json.find key = none ∨ (∃ name, json.HasString key name) ∨
      ∃ v, json.find key = some v ∧ v.getString = none := by
  cases hfind : json.find key with
  | none => exact .inl rfl
  | some v =>
      cases htext : v.getString with
      | none => exact .inr (.inr ⟨v, rfl, htext⟩)
      | some name =>
          obtain rfl := (Json.getString_eq_some_iff v name).1 htext
          exact .inr (.inl ⟨name, hfind⟩)

theorem not_stringOrAbsent {key : String} {v : Json} (hfind : json.find key = some v)
    (hv : v.getString = none) : ¬ json.StringOrAbsent key := fun h => by
  obtain ⟨text, rfl⟩ := h v hfind
  cases hv

theorem stringOrAbsent_of_absent {key : String} (h : json.find key = none) :
    json.StringOrAbsent key := fun _ hv => by
  rw [h] at hv
  cases hv

theorem deleteChannel_safe_iff (hsound : ∀ i, (pool.slot i).Sound)
    (hparse : P.parse ev = some json) :
    Safe (Malformed json .subscribeDeleteChannel) pool
        (subscribeSideDeleteChannel P.parse ev pool) ↔
      Tolerates P env json pool .subscribeDeleteChannel := by
  rcases named_cases "channel_id" json with habsent | ⟨id, hid⟩ | ⟨v, hfind, hv⟩
  · rw [deleteChannel_of_absent hparse habsent]
    refine iff_of_true (safe_kept _) ⟨stringOrAbsent_of_absent habsent, fun i hi => ?_⟩
    rw [Json.HasString, habsent] at hi
    cases hi
  · constructor
    · rintro ⟨⟨pool', hdone⟩, -⟩
      obtain ⟨hlive, -⟩ := (deleteChannel_eq_done_iff hparse hid hsound).1 hdone
      exact ⟨hid.stringOrAbsent, fun i hi =>
        (hlive i (hi.unique hid)).eventDispatchThread⟩
    · rintro ⟨-, hthreads⟩
      have hlive : ∀ i, (pool.slot i).channelId = id → (pool.slot i).Live :=
        fun i hi => (hsound i).live_of_joinable (hthreads i (hi ▸ hid))
      rw [deleteChannel_done hparse hid hlive]
      exact ⟨⟨_, rfl⟩, fun hmalformed => absurd hmalformed (Json.text_ne_none_iff.2 ⟨_, hid⟩)⟩
  · rw [((named_of_mistyped hparse hv).1 hfind).1]
    exact iff_of_false not_safe_thrown fun h => not_stringOrAbsent hfind hv h.1

theorem property_safe_iff (hparse : P.parse ev = some json) :
    Safe (Malformed json .subscribePropertyChannel) pool
        (subscribeSidePropertyChannel P.parse ev pool) ↔
      Tolerates P env json pool .subscribePropertyChannel := by
  rcases named_cases "channel_id" json with habsent | ⟨id, hid⟩ | ⟨v, hfind, hv⟩
  · rw [property_of_absent hparse habsent]
    refine iff_of_true (safe_kept _) ⟨stringOrAbsent_of_absent habsent, fun i hi => ?_⟩
    rw [Json.HasString, habsent] at hi
    cases hi
  · rcases find?_or_unknown pool id with ⟨first, hfind⟩ | hnone
    · obtain ⟨hmatch, hfirst⟩ := Pool.first_of_find? hfind
      constructor
      · rintro ⟨⟨pool', hdone⟩, hkept⟩
        obtain ⟨hstrings, rfl⟩ := (property_eq_done_iff hparse hid hfind).1 hdone
        refine ⟨hid.stringOrAbsent, fun i hi hifirst => ?_⟩
        have hidi := hi.unique hid
        rw [hidi] at hifirst
        obtain rfl := hifirst.unique hfirst hidi hmatch
        refine ⟨hstrings, fun hunreadable => ?_⟩
        simpa only [hdone, Outcome.state_done, Function.update_self] using
          hkept (.inr hunreadable) i
      · rintro ⟨-, htolerates⟩
        obtain ⟨hstrings, hsame⟩ := htolerates first (hmatch ▸ hid) (hmatch ▸ hfirst)
        rw [(property_eq_done_iff hparse hid hfind).2 ⟨hstrings, rfl⟩]
        refine ⟨⟨_, rfl⟩, fun hmalformed i => ?_⟩
        rcases hmalformed with hnone | hunreadable
        · exact absurd hnone (Json.text_ne_none_iff.2 ⟨_, hid⟩)
        · rw [Outcome.state_done, hsame hunreadable, Function.update_eq_self]
    · rw [property_of_unknown hparse hid hnone]
      exact iff_of_true (safe_kept _) ⟨hid.stringOrAbsent,
        fun i hi => absurd (hi.unique hid) (hnone i)⟩
  · rw [((named_of_mistyped hparse hv).1 hfind).2]
    exact iff_of_false not_safe_thrown fun h => not_stringOrAbsent hfind hv h.1

theorem addImage_safe_iff (hparse : P.parse ev = some json) :
    Safe (Malformed json .resourceAddStaticImage) pool
        (resourceAddStaticImage P ev env pool) ↔
      Tolerates P env json pool .resourceAddStaticImage := by
  by_cases hrejects : pool.Rejects addImageKeys json
  · rw [addImage_of_rejects hparse hrejects]
    exact iff_of_true (safe_kept _) (.inl hrejects)
  by_cases hmistyped : ∃ key ∈ addImageKeys, json.text key = none
  · rw [addImage_of_mistyped hparse hrejects hmistyped]
    refine iff_of_false not_safe_thrown ?_
    rintro (h | ⟨path, posX, posY, hpath, hposX, hposY, -⟩)
    · exact hrejects h
    · refine Json.exists_text_eq_none_iff.1 hmistyped ?_
      simp only [addImageKeys, List.forall_mem_cons]
      exact ⟨⟨_, hpath⟩, ⟨_, hposX⟩, ⟨_, hposY⟩, List.forall_mem_nil _⟩
  have htext : ∀ key ∈ addImageKeys, ∃ text, json.HasString key text :=
    not_not.1 fun h => hmistyped (Json.exists_text_eq_none_iff.2 h)
  obtain ⟨i, path, posX, posY, hindex, hpath, hposX, hposY, hadd⟩ :=
    addImage_of_texts hparse hrejects htext env
  rw [hadd]
  cases hload : env.stbiLoad path with
  | none =>
      refine iff_of_true (safe_kept _) (.inr ⟨path, posX, posY, hpath, hposX, hposY,
        fun image himage => ?_⟩)
      rw [hload] at himage
      cases himage
  | some image =>
      constructor
      · rintro ⟨⟨pool', hdone⟩, -⟩
        obtain ⟨r, hshow, -⟩ := (Outcome.mapState_eq_done_iff ..).1 hdone
        obtain ⟨x, y, hx, hy, hcopies, -⟩ := showImage_eq_done_iff.1 hshow
        refine .inr ⟨path, posX, posY, hpath, hposX, hposY, fun image' himage => ?_⟩
        obtain rfl := Option.some.inj (hload.symm.trans himage)
        exact ⟨⟨x, y, hx, hy⟩, hcopies⟩
      · rintro (h | ⟨path', posX', posY', hpath', hposX', hposY', hfine⟩)
        · exact absurd h hrejects
        obtain rfl := hpath.unique hpath'
        obtain rfl := hposX.unique hposX'
        obtain rfl := hposY.unique hposY'
        obtain ⟨⟨x, y, hx, hy⟩, hcopies⟩ := hfine image hload
        have hshow : showImage P path posX posY image env (pool.slot i) pool.shared =
            .done (shownImage P path x y image env (pool.slot i), env.texture :: pool.shared) :=
          showImage_eq_done_iff.2 ⟨x, y, hx, hy, hcopies, rfl⟩
        refine ⟨⟨_, Family.visit_eq_done hshow⟩, fun hmalformed => ?_⟩
        rcases hmalformed with hmalformed | ⟨key, hkey, text, e, htext, herror⟩
        · exact absurd hmalformed hmistyped
        · simp only [List.mem_cons, List.not_mem_nil, or_false] at hkey
          rcases hkey with rfl | rfl
          · rw [htext.unique hposX, hx] at herror
            cases herror
          · rw [htext.unique hposY, hy] at herror
            cases herror

theorem deleteImage_safe_iff (hparse : P.parse ev = some json) :
    Safe (Malformed json .resourceDeleteStaticImage) pool
        (resourceDeleteStaticImage P ev pool) ↔
      Tolerates P env json pool .resourceDeleteStaticImage := by
  rcases named_cases "path" json with habsent | ⟨path, hpath⟩ | ⟨v, hfind, hv⟩
  · rw [deleteImage_of_absent hparse habsent]
    exact iff_of_true (safe_kept _) (stringOrAbsent_of_absent habsent)
  · rw [deleteImage_done hparse hpath]
    exact iff_of_true ⟨⟨_, rfl⟩, fun hmalformed =>
      absurd hmalformed (Json.text_ne_none_iff.2 ⟨_, hpath⟩)⟩ (hpath.stringOrAbsent)
  · rw [(named_of_mistyped hparse hv).2 hfind]
    exact iff_of_false not_safe_thrown (not_stringOrAbsent hfind hv)

theorem executeCommand_safe_iff {ev : SEvent} (hsound : ∀ i, (pool.slot i).Sound)
    (hparse : P.parse ev.event = some json) :
    Safe (Malformed json ev.type) pool (executeCommand P env ev pool) ↔
      Tolerates P env json pool ev.type := by
  unfold executeCommand
  split
  case h_1 htype =>
    rw [htype]
    exact addChannel_safe_iff hsound hparse
  case h_2 htype =>
    rw [htype]
    exact deleteChannel_safe_iff hsound hparse
  case h_3 htype =>
    rw [htype]
    exact property_safe_iff hparse
  case h_4 htype =>
    rw [htype]
    exact addImage_safe_iff hparse
  case h_5 htype =>
    rw [htype]
    exact deleteImage_safe_iff hparse
  case h_6 hadd hdelete hproperty himage hremove =>
    refine iff_of_true (safe_kept _) ?_
    unfold Tolerates
    split <;> trivial

theorem onRecv_isDone_iff {chunk : Bytes} {t : Telnet} :
    (onRecv P.parse chunk t).IsDone ↔
      ¬ (chunk ≠ [] ∧ endsCommand (t.req ++ chunk) ∧ Mistyped P.parse (t.req ++ chunk)) := by
  unfold onRecv
  split
  · simp_all
  · dsimp only
    split
    · simp_all [readCommand_isDone_iff]
    · simp_all

/-- What a client can send in one connection is handled safely exactly if no call of
`onRecv` reads a text whose `type` is not a string, and every command that is queued
is one that its handler tolerates in the state of the program. -/
theorem telnet_safe_iff {chunks : List Bytes} {t : Telnet}
    (ht : receiveAll P.parse chunks {} = .done t) :
    (∀ chunk, (onRecv P.parse chunk t).IsDone ↔
      ¬ (chunk ≠ [] ∧ endsCommand (t.req ++ chunk) ∧ Mistyped P.parse (t.req ++ chunk))) ∧
    ∀ ev ∈ t.events, ∃ json, P.parse ev.event = some json ∧
      ∀ (w : World) (env : Answers), w.Reachable P →
        (Safe (Malformed json ev.type) w.pool (executeCommand P env ev w.pool) ↔
          Tolerates P env json w.pool ev.type) := by
  refine ⟨fun chunk => onRecv_isDone_iff, fun ev hev => ?_⟩
  have hcommand := receiveAll_events (List.forall_mem_nil _) ht ev hev
  obtain ⟨json, hparse, -⟩ := Option.bind_eq_some_iff.1 hcommand
  exact ⟨json, hparse, fun w env hw =>
    executeCommand_safe_iff (fun i => (hw.sound i).inst) hparse⟩

/-- The equivalences for a client that sends one delete. -/
theorem telnet_safe_iff_delete :
    ∃ t, receiveAll Sample.platform.parse [flatText Sample.deleteChannel ++ [cr, lf]] {} =
        .done t ∧ t.events.length = 1 ∧
      (∀ chunk, (onRecv Sample.platform.parse chunk t).IsDone ↔
        ¬ (chunk ≠ [] ∧ endsCommand (t.req ++ chunk) ∧
          Mistyped Sample.platform.parse (t.req ++ chunk))) ∧
      ∀ ev ∈ t.events, ∃ json, Sample.platform.parse ev.event = some json ∧
        ∀ (w : World) (env : Answers), w.Reachable Sample.platform →
          (Safe (Malformed json ev.type) w.pool (executeCommand Sample.platform env ev w.pool) ↔
            Tolerates Sample.platform env json w.pool ev.type) := by
  obtain ⟨t, ht, hlength⟩ : ∃ t, receiveAll Sample.platform.parse
      [flatText Sample.deleteChannel ++ [cr, lf]] {} = .done t ∧ t.events.length = 1 :=
    ⟨_, rfl, rfl⟩
  exact ⟨t, ht, hlength, telnet_safe_iff ht⟩

/-- A type that is a number ends `onRecv` with an exception, and a delete with the empty
id ends the main loop with one, in the first state of the program. -/
theorem not_safe_number_type :
    ¬ (receiveAll Sample.platform.parse [flatText Sample.numberType ++ [cr, lf]] {}).IsDone ∧
      ∃ t, receiveAll Sample.platform.parse [flatText Sample.deleteNoChannel ++ [cr, lf]] {} =
          .done t ∧
        ∃ ev ∈ t.events, ∀ env,
          ¬ (executeCommand Sample.platform env ev World.startup.pool).IsDone := by
  have hrecv : ∃ t, receiveAll Sample.platform.parse
      [flatText Sample.numberType ++ [cr, lf]] {} = .thrown .typeError t := ⟨_, rfl⟩
  have hdelete : ∃ pool, subscribeSideDeleteChannel Sample.platform.parse
      (flatText Sample.deleteNoChannel ++ [cr, lf]) World.startup.pool =
        .thrown .systemError pool := ⟨_, rfl⟩
  refine ⟨?_, _, rfl, _, List.mem_singleton.2 rfl, fun env => ?_⟩
  · obtain ⟨t, ht⟩ := hrecv
    rw [ht]
    exact Outcome.not_isDone_thrown _ _
  · obtain ⟨pool, hpool⟩ := hdelete
    intro hdone
    rw [executeCommand] at hdone
    exact Outcome.not_isDone_thrown _ _ (hpool ▸ hdone)

end Bres
