import Bres.Pool.World

/-!
# What a property command changes

`subscribeSidePropertyChannel` sets the attributes of the first slot that remembers
the id, and stops. It changes exactly the slots with a live channel of that id if
and only if, among the slots that remember the id and whose attributes the command
would change, the first one holds the channel and no later one does.
-/

namespace Bres

open Transition

namespace Pool

/-- The outcome of an update that sets the attributes in every slot with a channel of
that id, and in no other. -/
def UpdatesExactly (pool : Pool) (id : String) (json : Json) (o : Outcome Exn Pool) : Prop :=
  ∃ pool', o = .done pool' ∧ pool'.shared = pool.shared ∧ ∀ i,
    ((pool.slot i).HoldsChannel id → pool'.slot i = (pool.slot i).withAttributes json) ∧
      (¬ (pool.slot i).HoldsChannel id → pool'.slot i = pool.slot i)

/-- No slot in front of this one remembers the id. -/
def FirstToRemember (pool : Pool) (id : String) (i : Fin instanceMax) : Prop :=
  ∀ j < i, (pool.slot j).channelId ≠ id

/-- What `subscribeSidePropertyChannel` needs to be exact. -/
def FindsChannel (pool : Pool) (id : String) (json : Json) : Prop :=
  ∀ i, (pool.slot i).channelId = id →
    (pool.slot i).withAttributes json = pool.slot i ∨
      ((pool.slot i).HoldsChannel id ↔ pool.FirstToRemember id i)

variable {pool : Pool} {id : String}

theorem first_of_find? {i : Fin instanceMax}
    (h : ((List.finRange instanceMax).find? fun i => (pool.slot i).channelId = id) = some i) :
    (pool.slot i).channelId = id ∧ pool.FirstToRemember id i := by
  obtain ⟨hi, front, rear, hsplit, hfront⟩ := List.find?_eq_some_iff_append.1 h
  refine ⟨of_decide_eq_true hi, fun j hji hj => ?_⟩
  have hsorted := List.pairwise_lt_finRange instanceMax
  rw [hsplit] at hsorted
  have hmem : j ∈ front ++ i :: rear := hsplit ▸ List.mem_finRange j
  rcases List.mem_append.1 hmem with hmem | hmem
  · simpa [hj] using hfront j hmem
  · rcases List.mem_cons.1 hmem with rfl | hmem
    · exact lt_irrefl _ hji
    · have hij := List.rel_of_pairwise_cons (List.pairwise_append.1 hsorted).2.1 hmem
      exact lt_asymm hij hji

theorem FirstToRemember.unique {i j : Fin instanceMax} (hi : pool.FirstToRemember id i)
    (hj : pool.FirstToRemember id j) (hidi : (pool.slot i).channelId = id)
    (hidj : (pool.slot j).channelId = id) : i = j := by
  rcases lt_trichotomy i j with hlt | heq | hgt
  · exact absurd hidi (hj i hlt)
  · exact heq
  · exact absurd hidj (hi j hgt)

/-- Setting the attributes of the first slot that remembers the id. -/
theorem updatesExactly_update_iff {json : Json} {first : Fin instanceMax}
    (hid : (pool.slot first).channelId = id) (hfirst : pool.FirstToRemember id first) :
    pool.UpdatesExactly id json (.done { pool with
        slot := Function.update pool.slot first ((pool.slot first).withAttributes json) }) ↔
      pool.FindsChannel id json := by
  constructor
  · rintro ⟨pool', hdone, -, hexact⟩ i hi
    obtain rfl := Outcome.done.inj hdone
    simp only [Function.update_apply] at hexact
    obtain ⟨hset, hkept⟩ := hexact i
    by_cases hif : i = first
    · subst hif
      simp only [if_true] at hset hkept
      by_cases hholds : (pool.slot i).HoldsChannel id
      · exact .inr ⟨fun _ => hfirst, fun _ => hholds⟩
      · exact .inl (hkept hholds)
    · simp only [if_neg hif] at hset hkept
      by_cases hholds : (pool.slot i).HoldsChannel id
      · exact .inl (hset hholds).symm
      · exact .inr ⟨fun h => absurd h hholds,
          fun h => absurd (h.unique hfirst hi hid) hif⟩
  · intro hfinds
    refine ⟨_, rfl, rfl, fun i => ?_⟩
    simp only [Function.update_apply]
    by_cases hif : i = first
    · subst hif
      simp only [if_true, implies_true, true_and]
      intro hholds
      exact (hfinds i hid).resolve_right fun h => hholds (h.2 hfirst)
    · simp only [if_neg hif, implies_true, and_true]
      intro hholds
      refine ((hfinds i hholds.2).resolve_right fun h => hif ?_).symm
      exact (h.1 hholds).unique hfirst hholds.2 hid

end Pool

section Rules

variable {P : Platform} {ev : Bytes} {json : Json} {pool : Pool} {id : String}

/-- No slot remembers the id. -/
theorem property_of_unknown (hparse : P.parse ev = some json)
    (hid : json.HasString "channel_id" id) (hnone : ∀ i, (pool.slot i).channelId ≠ id) :
    subscribeSidePropertyChannel P.parse ev pool = .done pool := by
  have hfind : ((List.finRange instanceMax).find? fun i => (pool.slot i).channelId = id) =
      none := by simpa using hnone
  rw [property_of_id hparse hid, hfind]

/-- The first slot that remembers the id is set, if the attributes are strings. -/
theorem property_eq_done_iff {pool' : Pool} {first : Fin instanceMax}
    (hparse : P.parse ev = some json) (hid : json.HasString "channel_id" id)
    (hfirst : ((List.finRange instanceMax).find? fun i => (pool.slot i).channelId = id) =
      some first) :
    subscribeSidePropertyChannel P.parse ev pool = .done pool' ↔
      (∀ key ∈ attributeKeys, json.StringOrAbsent key) ∧
        pool' = { pool with
          slot := Function.update pool.slot first ((pool.slot first).withAttributes json) } := by
  rw [property_of_id hparse hid, hfirst]
  constructor
  · intro h
    obtain ⟨_, hvisit, rfl⟩ := (Outcome.mapState_eq_done_iff ..).1 h
    obtain ⟨_, hset, rfl⟩ := (Outcome.mapState_eq_done_iff ..).1 hvisit
    obtain ⟨hstrings, rfl⟩ := setAttributes_eq_done_iff.1 hset
    exact ⟨hstrings, rfl⟩
  · rintro ⟨hstrings, rfl⟩
    have hset : setAttributes json (pool.slot first) =
        .done ((pool.slot first).withAttributes json) :=
      setAttributes_eq_done_iff.2 ⟨hstrings, rfl⟩
    exact Family.visit_eq_done (by rw [hset, Outcome.mapState_done])

/-- A slot that remembers the id, or none. -/
theorem find?_or_unknown (pool : Pool) (id : String) :
    (∃ first, ((List.finRange instanceMax).find? fun i => (pool.slot i).channelId = id) =
      some first) ∨ ∀ i, (pool.slot i).channelId ≠ id := by
  cases hfirst : (List.finRange instanceMax).find? fun i => (pool.slot i).channelId = id with
  | none => exact .inr (by simpa using hfirst)
  | some first => exact .inl ⟨first, rfl⟩

/-- A property command whose attributes are strings changes exactly the slots with a
channel of its id, if and only if it finds them. -/
theorem property_exact_iff (hparse : P.parse ev = some json)
    (hid : json.HasString "channel_id" id)
    (hstrings : ∀ key ∈ attributeKeys, json.StringOrAbsent key) :
    pool.UpdatesExactly id json (subscribeSidePropertyChannel P.parse ev pool) ↔
      pool.FindsChannel id json := by
  rcases find?_or_unknown pool id with ⟨first, hfind⟩ | hnone
  · obtain ⟨hmatch, hfirst⟩ := Pool.first_of_find? hfind
    rw [(property_eq_done_iff hparse hid hfind).2 ⟨hstrings, rfl⟩]
    exact Pool.updatesExactly_update_iff hmatch hfirst
  · rw [property_of_unknown hparse hid hnone]
    exact iff_of_true ⟨pool, rfl, rfl, fun i =>
        ⟨fun hholds => absurd hholds.2 (hnone i), fun _ => rfl⟩⟩
      fun i hi => absurd hi (hnone i)

end Rules

/-- A live channel is drawn, and the image beside it is left alone. -/
theorem property_exact_iff_startup :
    ∃ w, run (World.step Sample.platform) World.startup
        [Sample.command 1 .subscribeAddChannel Sample.addChannel,
          Sample.command 2 .resourceAddStaticImage Sample.addImage] = some w ∧
      (w.pool.slot 0).HoldsChannel "sora" ∧ (w.pool.slot 1).HoldsImage "logo.png" ∧
      w.pool.UpdatesExactly "sora" (.object Sample.property)
        (subscribeSidePropertyChannel Sample.platform.parse (flatText Sample.property)
          w.pool) := by
  have hobserved : (run (World.step Sample.platform) World.startup
        [Sample.command 1 .subscribeAddChannel Sample.addChannel,
          Sample.command 2 .resourceAddStaticImage Sample.addImage]).map
      (fun w => (decide ((w.pool.slot 0).HoldsChannel "sora" ∧
          (w.pool.slot 1).HoldsImage "logo.png"),
        decide (∀ i, (w.pool.slot i).channelId = "sora" → i = 0))) = some (true, true) := by
    decide +kernel
  obtain ⟨w, hw, hpair⟩ := Option.map_eq_some_iff.1 hobserved
  obtain ⟨hplaced, hfirst⟩ := Prod.mk.inj hpair
  obtain ⟨hholds, hshows⟩ := of_decide_eq_true hplaced
  have hfinds : w.pool.FindsChannel "sora" (.object Sample.property) := by
    intro i hi
    obtain rfl := of_decide_eq_true hfirst i hi
    exact .inr ⟨fun _ j hj => absurd hj (Nat.not_lt_zero _), fun _ => hholds⟩
  have hstrings : ∀ key ∈ attributeKeys,
      (Json.object Sample.property).find key = none ∨
        (Json.object Sample.property).find key = some (.string "1") := by
    simp only [attributeKeys, List.forall_mem_cons]
    exact ⟨.inr rfl, .inl rfl, .inl rfl, .inl rfl, .inl rfl, List.forall_mem_nil _⟩
  have hparse : Sample.platform.parse (flatText Sample.property) =
      some (.object Sample.property) := rfl
  have hid : (Json.object Sample.property).HasString "channel_id" "sora" := rfl
  refine ⟨w, hw, hholds, hshows,
    (property_exact_iff hparse hid fun key hkey v hv => ?_).2 hfinds⟩
  rcases hstrings key hkey with hnone | hsome
  · rw [hnone] at hv
    cases hv
  · rw [hsome] at hv
    exact ⟨"1", (Option.some.inj hv).symm⟩

/-- A property command for a channel that has been deleted makes its free slot drawn. -/
theorem not_updatesExactly_add_delete :
    ∃ w, run (World.step Sample.platform) World.startup
        [Sample.command 1 .subscribeAddChannel Sample.addChannel,
          Sample.command 2 .subscribeDeleteChannel Sample.deleteChannel] = some w ∧
      (w.pool.slot 0).instanceEnum = .min ∧
      ((subscribeSidePropertyChannel Sample.platform.parse (flatText Sample.property)
        w.pool).state.slot 0).isDraw = 1 ∧
      ¬ w.pool.UpdatesExactly "sora" (.object Sample.property)
        (subscribeSidePropertyChannel Sample.platform.parse (flatText Sample.property)
          w.pool) := by
  have hobserved : (run (World.step Sample.platform) World.startup
        [Sample.command 1 .subscribeAddChannel Sample.addChannel,
          Sample.command 2 .subscribeDeleteChannel Sample.deleteChannel]).map
      (fun w => ((w.pool.slot 0).instanceEnum, (w.pool.slot 0).isDraw,
        ((subscribeSidePropertyChannel Sample.platform.parse (flatText Sample.property)
          w.pool).state.slot 0).isDraw)) = some (.min, 0, 1) := by
    decide +kernel
  obtain ⟨w, hw, htriple⟩ := Option.map_eq_some_iff.1 hobserved
  obtain ⟨henum, hpair⟩ := Prod.mk.inj htriple
  obtain ⟨hbefore, hafter⟩ := Prod.mk.inj hpair
  refine ⟨w, hw, henum, hafter, ?_⟩
  rintro ⟨pool', hdone, -, hexact⟩
  have hkept := (hexact 0).2 fun hholds => absurd (henum.symm.trans hholds.1) nofun
  rw [hdone, Outcome.state_done, hkept, hbefore] at hafter
  cases hafter

end Bres
