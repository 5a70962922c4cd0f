import Bres.Pool.World
import Bres.Telnet.Recv
import Bres.Transition.Framing

/-!
# Commands cut into chunks

A client sends its commands as lines, each a JSON text with CRLF behind it, and
`recv` returns the stream in chunks that need not respect the lines. `onRecv` looks
only at the last two bytes it holds: it sees the end of a line if a chunk ends
there, and it reads everything that it has collected as one text. So a line is read
by itself exactly if it begins and ends where a chunk does; otherwise it is read
together with a neighbour, and two texts in a row are not a text.
-/

namespace Bres

open Transition

/-- What `onRecv` relies on in its reader. The empty text is rejected, the white space
behind a text is skipped, and a text is rejected if another one follows it. A zero
byte counts as the end of the input, so it is excluded. -/
structure ReadsTexts (parse : Bytes → Option Json) : Prop where
  empty : parse [] = none
  trailing : ∀ text, 0 ∉ text → (parse text).isSome → parse (text ++ [cr, lf]) = parse text
  single : ∀ text next rest, 0 ∉ text → (parse text).isSome → (parse next).isSome →
    parse (text ++ [cr, lf] ++ next ++ rest) = none

/-- A JSON text on one line. -/
structure Line (parse : Bytes → Option Json) where
  text : Bytes
  accepted : (parse text).isSome
  no_cr : cr ∉ text
  no_lf : lf ∉ text
  no_nul : 0 ∉ text

variable {parse : Bytes → Option Json}

namespace Line

/-- The line as the client sends it. -/
def sent (line : Line parse) : Bytes := line.text ++ [cr, lf]

theorem text_ne_nil (hparse : ReadsTexts parse) (line : Line parse) : line.text ≠ [] := by
  intro hnil
  have haccepted := line.accepted
  rw [hnil, hparse.empty] at haccepted
  cases haccepted

theorem sent_ne_nil (line : Line parse) : line.sent ≠ [] := by simp [sent]

theorem getElem?_sent {line : Line parse} {i : ℕ} {b : UInt8} (hb : b ∉ line.text)
    (h : line.sent[i]? = some b) :
    ∃ j, i = line.text.length + j ∧ [cr, lf][j]? = some b := by
  rw [sent] at h
  rcases Nat.lt_or_ge i line.text.length with hlt | hge
  · rw [List.getElem?_append_left hlt] at h
    exact absurd (List.mem_of_getElem? h) hb
  · obtain ⟨j, rfl⟩ := Nat.exists_eq_add_of_le hge
    rw [List.getElem?_append_right hge, Nat.add_sub_cancel_left] at h
    exact ⟨j, rfl, h⟩

theorem length_of_sent_lf {line : Line parse} {i : ℕ} (h : line.sent[i]? = some lf) :
    line.sent.length = i + 1 := by
  obtain ⟨j, rfl, hj⟩ := getElem?_sent line.no_lf h
  match j with
  | 0 => exact absurd hj (by decide)
  | 1 => simp [sent, Nat.add_assoc]
  | _ + 2 => simp at hj

theorem length_of_sent_cr {line : Line parse} {i : ℕ} (h : line.sent[i]? = some cr) :
    line.sent.length = i + 2 := by
  obtain ⟨j, rfl, hj⟩ := getElem?_sent line.no_cr h
  match j with
  | 0 => simp [sent]
  | 1 => exact absurd hj (by decide)
  | _ + 2 => simp at hj

/-- A byte that only occurs `n` before the end of a line. -/
theorem cutAt_of_getElem? {b : UInt8} {n : ℕ}
    (hb : ∀ (line : Line parse) (i : ℕ), line.sent[i]? = some b → line.sent.length = i + n)
    {lines : List (Line parse)} {i : ℕ} (h : (lines.flatMap sent)[i]? = some b) :
    CutAt (lines.map sent) (i + n) := by
  induction lines generalizing i with
  | nil => simp at h
  | cons line lines ih =>
      rw [List.flatMap_cons] at h
      rcases Nat.lt_or_ge i line.sent.length with hlt | hge
      · rw [List.getElem?_append_left hlt] at h
        exact ⟨1, by simp [hb line i h]⟩
      · obtain ⟨j, rfl⟩ := Nat.exists_eq_add_of_le hge
        rw [List.getElem?_append_right hge, Nat.add_sub_cancel_left] at h
        rw [List.map_cons, Nat.add_assoc, cutAt_cons_add_iff line.sent_ne_nil]
        exact ih h

/-- `onRecv` does not see an end where no line ends. -/
theorem endsCommand_eq_false {lines : List (Line parse)} {req : Bytes}
    (hfront : req <+: lines.flatMap sent) (hcut : ¬ CutAt (lines.map sent) req.length) :
    endsCommand req = false := by
  rw [Bool.eq_false_iff]
  intro h
  obtain ⟨hlength, hend⟩ := of_decide_eq_true h
  obtain ⟨rest, hrest⟩ := hfront
  have hbyte : ∀ {i : ℕ} {b : UInt8}, req[i]? = some b →
      (lines.flatMap sent)[i]? = some b := by
    intro i b hi
    rw [← hrest, List.getElem?_append_left (List.getElem?_eq_some_iff.1 hi).1, hi]
  rcases hend with hlf | hcr
  · have h := cutAt_of_getElem? (fun _ _ => length_of_sent_lf) (hbyte hlf)
    rw [Nat.sub_add_cancel (by omega)] at h
    exact hcut h
  · have h := cutAt_of_getElem? (fun _ _ => length_of_sent_cr) (hbyte hcr)
    rw [Nat.sub_add_cancel (by omega)] at h
    exact hcut h

/-- `onRecv` sees the end of whole lines. -/
theorem endsCommand_eq_true (hparse : ReadsTexts parse) {lines : List (Line parse)}
    (hlines : lines ≠ []) : endsCommand (lines.flatMap sent) = true := by
  obtain ⟨front, line, rfl⟩ := (List.eq_nil_or_concat' lines).resolve_left hlines
  have htext := List.length_pos_iff.2 (line.text_ne_nil hparse)
  have hwire : (front ++ [line]).flatMap sent =
      front.flatMap sent ++ line.text ++ [cr] ++ [lf] := by simp [sent]
  rw [hwire]
  refine decide_eq_true ⟨?_, .inl ?_⟩
  · simp only [List.length_append, List.length_cons, List.length_nil]
    omega
  · simp

end Line

/-- The commands of a stream, as `onRecv` is to queue them. -/
def commands (lines : List (Line parse)) : List SEvent :=
  lines.filterMap fun line =>
    (commandOf parse line.text).map fun command => ⟨command, line.sent⟩

/-- What is queued when some lines are read as one text. -/
def received (g : List (Line parse)) : List SEvent :=
  if g.length = 1 then commands g else []

theorem parse_sent (hparse : ReadsTexts parse) (line : Line parse) :
    parse line.sent = parse line.text := hparse.trailing _ line.no_nul line.accepted

/-- Several lines are not a text. -/
theorem parse_lines (hparse : ReadsTexts parse) {g : List (Line parse)} (hg : 1 < g.length) :
    parse (g.flatMap Line.sent) = none := by
  match g with
  | first :: second :: rest =>
      have htext := hparse.single first.text second.text ([cr, lf] ++ rest.flatMap Line.sent)
        first.no_nul first.accepted second.accepted
      simpa [Line.sent] using htext

/-- A group of lines is a single line, or not a text. -/
theorem group_cases (hparse : ReadsTexts parse) {g : List (Line parse)} (hg : g ≠ []) :
    (∃ line, g = [line]) ∨ g.length ≠ 1 ∧ parse (g.flatMap Line.sent) = none := by
  match g with
  | [line] => exact .inl ⟨line, rfl⟩
  | _ :: _ :: _ => exact .inr ⟨by simp, parse_lines hparse (by simp)⟩

theorem mistyped_group_iff (hparse : ReadsTexts parse) {g : List (Line parse)} (hg : g ≠ []) :
    ¬ Mistyped parse (g.flatMap Line.sent) ↔
      ∀ line ∈ g, Mistyped parse line.text → g.length ≠ 1 := by
  rcases group_cases hparse hg with ⟨line, rfl⟩ | ⟨hlength, hnone⟩
  · simp [Mistyped, parse_sent hparse]
  · exact iff_of_true (by simp [Mistyped, hnone]) fun _ _ _ => hlength

theorem queued_group (hparse : ReadsTexts parse) {g : List (Line parse)} (hg : g ≠ []) :
    (queued parse (g.flatMap Line.sent)).toList = received g := by
  rcases group_cases hparse hg with ⟨line, rfl⟩ | ⟨hlength, hnone⟩
  · have hlength : [line].length = 1 := rfl
    rw [List.flatMap_singleton, queued, commandOf, parse_sent hparse, ← commandOf, received,
      if_pos hlength, commands]
    cases hcommand : commandOf parse line.text <;> simp [hcommand]
  · rw [received, if_neg hlength, queued, commandOf, hnone]
    rfl

/-- The lines of a group are read as one text, which is a command only if there is one
line. -/
theorem onRecv_group_eq_done_iff (hparse : ReadsTexts parse) {g : List (Line parse)}
    (hg : g ≠ []) {t t' : Telnet} (ht : t.req = []) :
    onRecv parse (g.flatMap Line.sent) t = .done t' ↔
      (∀ line ∈ g, Mistyped parse line.text → g.length ≠ 1) ∧
        t' = { t with events := t.events ++ received g } := by
  have hends := Line.endsCommand_eq_true hparse hg
  have hchunk : g.flatMap Line.sent ≠ [] := by
    intro hnil
    rw [hnil] at hends
    cases hends
  rw [onRecv, if_neg hchunk]
  simp only [ht, List.nil_append, hends, if_true]
  rw [readCommand_eq_done_iff, mistyped_group_iff hparse hg, queued_group hparse hg, ← ht]

/-- The groups of a stream are read one by one. -/
theorem sweep_groups_eq_done_iff (hparse : ReadsTexts parse)
    {groups : List (List (Line parse))} {t t' : Telnet} (hgroups : ∀ g ∈ groups, g ≠ [])
    (ht : t.req = []) :
    Outcome.sweep (fun g => onRecv parse (g.flatMap Line.sent)) groups t = .done t' ↔
      (∀ g ∈ groups, ∀ line ∈ g, Mistyped parse line.text → g.length ≠ 1) ∧
        t' = { t with events := t.events ++ groups.flatMap received } := by
  induction groups generalizing t with
  | nil =>
      rw [Outcome.sweep_nil, Outcome.done.injEq, List.flatMap_nil, List.append_nil]
      exact ⟨fun h => ⟨List.forall_mem_nil _, h.symm⟩, fun h => h.2.symm⟩
  | cons g groups ih =>
      obtain ⟨hg, hgroups⟩ := List.forall_mem_cons.1 hgroups
      have hnext : ({ t with events := t.events ++ received g } : Telnet).req = [] := ht
      rw [Outcome.sweep_cons, Outcome.bind_eq_done_iff, List.forall_mem_cons]
      simp only [onRecv_group_eq_done_iff hparse hg ht, and_assoc, exists_and_left,
        exists_eq_left]
      rw [ih hgroups hnext, List.flatMap_cons, List.append_assoc]

/-- `onRecv` collects what does not end a line. -/
theorem onRecv_collect {lines : List (Line parse)} {chunk rest : Bytes} {t : Telnet}
    (ht : t.req = []) (hfront : chunk <+: lines.flatMap Line.sent)
    (hcut : ¬ CutAt (lines.map Line.sent) chunk.length) (hrest : rest ≠ []) :
    (onRecv parse chunk t).bind (onRecv parse rest) = onRecv parse (chunk ++ rest) t := by
  have hends := Line.endsCommand_eq_false hfront hcut
  have hchunk : chunk ≠ [] := by
    rintro rfl
    exact hcut (cutAt_zero _)
  have hcollect : onRecv parse chunk t = .done { t with req := chunk } := by
    simp [onRecv, hchunk, ht, hends]
  have hwhole : chunk ++ rest ≠ [] := by simp [hchunk]
  rw [hcollect, Outcome.done_bind, onRecv, if_neg hrest, onRecv, if_neg hwhole, ht]
  rfl

/-- The queue is sent exactly the commands of the stream, each once and in order. -/
def ReceivesExactly (chunks : List Bytes) (lines : List (Line parse)) : Prop :=
  ∀ events, ∃ t, receiveAll parse chunks { events := events } = .done t ∧
    t.events = events ++ commands lines

theorem received_eq_commands_iff (g : List (Line parse)) :
    received g = commands g ↔
      ∀ line ∈ g, (commandOf parse line.text).isSome → g.length = 1 := by
  unfold received
  split
  case isTrue hlength => exact iff_of_true rfl fun _ _ _ => hlength
  case isFalse hlength =>
    rw [commands, eq_comm, List.filterMap_eq_nil_iff]
    refine forall₂_congr fun line _ => ?_
    rw [Option.map_eq_none_iff, ← Option.not_isSome_iff_eq_none]
    exact not_congr Iff.rfl |>.trans (by simp [hlength])

theorem received_sublist (g : List (Line parse)) : (received g).Sublist (commands g) := by
  unfold received
  split
  · exact .refl _
  · exact List.nil_sublist _

theorem commands_flatten (groups : List (List (Line parse))) :
    commands groups.flatten = groups.flatMap commands := by
  induction groups with
  | nil => rfl
  | cons g groups ih => rw [List.flatten_cons, commands, List.filterMap_append, List.flatMap_cons,
      ← ih, commands, commands]

/-- A stream of lines is received exactly if every line that is a command begins and
ends where a chunk does, and no line does whose `type` is not a string. -/
theorem receivesExactly_iff (hparse : ReadsTexts parse) {chunks : List Bytes}
    {lines : List (Line parse)} (hchunks : [] ∉ chunks)
    (hstream : chunks.flatten = lines.flatMap Line.sent) :
    ReceivesExactly chunks lines ↔ ∀ k line, lines[k]? = some line →
      ((commandOf parse line.text).isSome → Isolated chunks (lines.map Line.sent) k) ∧
        (Mistyped parse line.text → ¬ Isolated chunks (lines.map Line.sent) k) := by
  obtain ⟨groups, rfl, h⟩ := Framed.exists_groups hchunks hstream Line.sent_ne_nil
  have hdone : ∀ {events t}, receiveAll parse chunks { events := events } = .done t ↔
      (∀ g ∈ groups, ∀ line ∈ g, Mistyped parse line.text → g.length ≠ 1) ∧
        t = { events := events ++ groups.flatMap received } := by
    intro events t
    rw [receiveAll, h.sweep (fun t => t.req = []) ?_ ?_ rfl]
    · exact sweep_groups_eq_done_iff hparse h.ne_nil rfl
    · exact fun lines c d t ht hfront hcut hd => onRecv_collect ht hfront hcut hd
    · intro g hg t t' ht hdone
      obtain ⟨-, rfl⟩ := (onRecv_group_eq_done_iff hparse hg ht).1 hdone
      exact ht
  have hnil : [] ∉ groups := fun hmem => h.ne_nil [] hmem rfl
  calc
    ReceivesExactly chunks groups.flatten ↔
        (∀ g ∈ groups, ∀ line ∈ g, Mistyped parse line.text → g.length ≠ 1) ∧
          groups.flatMap received = groups.flatMap commands := by
      simp [ReceivesExactly, hdone, commands_flatten]
    _ ↔ ∀ g ∈ groups, ∀ line ∈ g,
        ((commandOf parse line.text).isSome → g.length = 1) ∧
          (Mistyped parse line.text → g.length ≠ 1) := by
      rw [flatMap_eq_iff_of_sublist received_sublist, and_comm]
      simp only [received_eq_commands_iff, forall_and]
    _ ↔ _ := by
      rw [← forall_alone_iff hnil (R := fun line alone =>
        ((commandOf parse line.text).isSome → alone) ∧ (Mistyped parse line.text → ¬ alone))]
      refine forall₃_congr fun k line hline => ?_
      rw [h.isolated_iff Line.sent_ne_nil (List.getElem?_eq_some_iff.1 hline).1]

theorem trimEnd_crlf (text : Bytes) : trimEnd (text ++ [cr, lf]) = trimEnd text := by
  have hsplit : text ++ [cr, lf] = text ++ [cr] ++ [lf] := by simp
  rw [hsplit, trimEnd, List.rdropWhile_concat_pos _ _ _ rfl,
    List.rdropWhile_concat_pos _ _ _ rfl, trimEnd]

/-- The reader of the examples is such a reader. -/
theorem readsTexts_flatParse {known : List (List (String × Json))}
    (hknown : ∀ members ∈ known, lf ∉ flatText members) : ReadsTexts (flatParse known) where
  empty := by
    rw [← Option.not_isSome_iff_eq_none, flatParse_isSome_iff]
    rintro ⟨members, -, hmembers⟩
    exact flatText_ne_nil members hmembers
  trailing text _ _ := by rw [flatParse, flatParse, trimEnd_crlf]
  single text next rest _ _ hnext := by
    obtain ⟨members, -, hmembers⟩ := flatParse_isSome_iff.1 hnext
    have hrest : trimEnd (next ++ rest) ≠ [] := by
      rw [trimEnd, ne_eq, List.rdropWhile_eq_nil_iff]
      intro hspace
      refine flatText_ne_nil members (hmembers.trans (List.rdropWhile_eq_nil_iff.2 fun c hc => ?_))
      exact hspace c (List.mem_append_left _ hc)
    rw [← Option.not_isSome_iff_eq_none, flatParse_isSome_iff, List.append_assoc _ next,
      trimEnd_append hrest]
    rintro ⟨members, hmem, hmembers⟩
    refine hknown members hmem (hmembers ▸ ?_)
    simp

/-- A delete command on a line. -/
def Sample.deleteLine : Line Sample.platform.parse where
  text := flatText Sample.deleteChannel
  accepted := rfl
  no_cr := by decide +kernel
  no_lf := by decide +kernel
  no_nul := by decide +kernel

theorem Sample.readsTexts : ReadsTexts Sample.platform.parse :=
  readsTexts_flatParse (by decide +kernel)

/-- Two deletes in chunks of their own are received. -/
theorem receivesExactly_two_chunks :
    ReceivesExactly [Sample.deleteLine.sent, Sample.deleteLine.sent]
      [Sample.deleteLine, Sample.deleteLine] := by
  have hchunks : [] ∉ [Sample.deleteLine.sent, Sample.deleteLine.sent] := by
    simp [Sample.deleteLine.sent_ne_nil.symm]
  refine (receivesExactly_iff Sample.readsTexts hchunks rfl).2 fun k line hline => ?_
  have hsample : line = Sample.deleteLine := by
    have hmem := List.mem_of_getElem? hline
    simpa using hmem
  refine ⟨fun _ => ⟨⟨k, rfl⟩, k + 1, rfl⟩, ?_⟩
  rintro ⟨json, v, hjson, hfind, hv⟩
  subst hsample
  cases hjson
  cases hfind
  cases hv

/-- The same two deletes in one chunk are not. -/
theorem not_receivesExactly_one_chunk :
    ([Sample.deleteLine.sent ++ Sample.deleteLine.sent] : List Bytes).flatten =
        [Sample.deleteLine.sent, Sample.deleteLine.sent].flatten ∧
      (Sample.deleteLine.sent ++ Sample.deleteLine.sent).length ≤ 128 ∧
      ¬ ReceivesExactly [Sample.deleteLine.sent ++ Sample.deleteLine.sent]
        [Sample.deleteLine, Sample.deleteLine] := by
  refine ⟨rfl, by decide +kernel, fun h => ?_⟩
  obtain ⟨t, ht, hevents⟩ := h []
  have hrun : receiveAll Sample.platform.parse
      [Sample.deleteLine.sent ++ Sample.deleteLine.sent] {} = .done {} := rfl
  have hcommands : (commands [Sample.deleteLine, Sample.deleteLine]).length = 2 := rfl
  cases hrun.symm.trans ht
  rw [List.nil_append] at hevents
  rw [← hevents] at hcommands
  cases hcommands

end Bres
