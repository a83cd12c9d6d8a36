import ConsoleLog.Proofs.Transcript

/-!
# Lines behind a header

The lines of an exception are indented one by one, and so is the line that a message starts on. But a
message is written as it is: what stands behind a line feed in it begins a line of its own, which
is indented only if the message indents it. `continuation_indented_iff` says that this is all that can
go wrong.
-/

namespace ConsoleLog

namespace Transcript

/-- No line of these can be taken for a header. -/
def Indented (lines : List (List Char)) : Prop :=
  ∀ line ∈ lines, line ≠ [] → RecordView.padding.toList <+: line

def Continues (h : Header) (out : List Char) : Prop :=
  ∃ rest, out.splitOn '\n' = h.line :: rest ∧ Indented rest

/-! ## Cutting at line feeds -/

theorem splitOn_append_of_not_mem {u v first : List Char} {rest : List (List Char)}
    (hu : '\n' ∉ u) (hv : v.splitOn '\n' = first :: rest) :
    (u ++ v).splitOn '\n' = (u ++ first) :: rest := by
  induction u with
  | nil => exact hv
  | cons c u ih =>
    obtain ⟨hc, hu⟩ := not_or.mp fun hmem => hu (List.mem_cons.mpr hmem)
    have hne : ¬ (c == '\n') = true := fun h => hc (beq_iff_eq.mp h).symm
    rw [List.cons_append, List.splitOn_cons_eq_if_modifyHead, if_neg hne, ih hu]
    rfl

theorem splitOn_ended_append (line : List Char) (lines : List (List Char)) :
    (ended (line :: lines)).splitOn '\n' = line.splitOn '\n' ++ (ended lines).splitOn '\n' := by
  rw [ended, List.flatMap_cons, List.append_assoc, List.singleton_append]
  exact List.splitOn_append_cons_self line _

theorem lineFeed_not_mem_header {r : RecordView} (h : '\n' ∉ r.category.toList) :
    '\n' ∉ (Entry.ofRecord r).header.line := by
  have hline : (Entry.ofRecord r).header.line = (r.shownSeverity.tag ++ r.headerRest).toList :=
    (List.cons.inj (lines_ofRecord r)).1
  rw [hline, String.toList_append, List.mem_append, not_or]
  constructor
  · intro hmem
    cases Severity.isLower_of_mem_tag hmem
  · intro hmem
    rcases RecordView.mem_headerRest hmem with hown | hcategory
    · cases hown
    · exact h hcategory

theorem lineFeed_not_mem_padding : '\n' ∉ RecordView.padding.toList := by decide

theorem lineFeed_not_mem_exceptionLines {r : RecordView} :
    ∀ line ∈ r.exceptionLines.map fun text => (RecordView.padding ++ text).toList, '\n' ∉ line := by
  intro line hline hmem
  obtain ⟨text, htext, rfl⟩ := List.mem_map.mp hline
  rw [String.toList_append] at hmem
  rcases List.mem_append.mp hmem with hpadding | hpiece
  · exact lineFeed_not_mem_padding hpadding
  · obtain ⟨_, _, hcut⟩ := RecordView.mem_exceptionLines htext
    cases Text.isBreak_eq_false_of_mem_transcriptLines hcut hpiece

/-- The lines of a record as they can be seen: the message is on as many as it has line feeds and
one more. -/
theorem splitOn_ofRecord {r : RecordView} (h : '\n' ∉ r.category.toList) {first : List Char}
    {later : List (List Char)} (hmessage : r.message.toList.splitOn '\n' = first :: later) :
    (ended (Entry.ofRecord r).lines).splitOn '\n' = (Entry.ofRecord r).header.line ::
      ((RecordView.padding.toList ++ first) :: later ++
        (r.exceptionLines.map (fun text => (RecordView.padding ++ text).toList) ++ [[]])) := by
  have hlines : (Entry.ofRecord r).lines = (Entry.ofRecord r).header.line ::
      (RecordView.padding ++ r.message).toList ::
        r.exceptionLines.map fun text => (RecordView.padding ++ text).toList := rfl
  rw [hlines, splitOn_ended_append, splitOn_ended_append,
    splitOn_ended lineFeed_not_mem_exceptionLines,
    List.splitOn_eq_singleton (lineFeed_not_mem_header h), String.toList_append,
    splitOn_append_of_not_mem lineFeed_not_mem_padding hmessage]
  rfl

/-! ## Indentation -/

theorem indented_append (ls ms : List (List Char)) :
    Indented (ls ++ ms) ↔ Indented ls ∧ Indented ms := List.forall_mem_append

theorem indented_exceptionLines (r : RecordView) :
    Indented (r.exceptionLines.map (fun text => (RecordView.padding ++ text).toList) ++ [[]]) := by
  rw [indented_append]
  constructor
  · intro line hline _
    obtain ⟨text, _, rfl⟩ := List.mem_map.mp hline
    exact ⟨text.toList, String.toList_append.symm⟩
  · intro line hline hne
    exact absurd (List.mem_singleton.mp hline) hne

theorem continues_ofRecord_iff {r : RecordView} (h : '\n' ∉ r.category.toList) :
    Continues (Entry.ofRecord r).header (ended (Entry.ofRecord r).lines) ↔
      Indented (r.message.toList.splitOn '\n').tail := by
  obtain ⟨first, later, hmessage⟩ :=
    List.exists_cons_of_ne_nil (List.splitOn_ne_nil '\n' r.message.toList)
  have hfirst : Indented [RecordView.padding.toList ++ first] := by
    intro line hline _
    rw [List.mem_singleton.mp hline]
    exact List.prefix_append _ _
  have hrest : Indented ((RecordView.padding.toList ++ first) :: later ++
      (r.exceptionLines.map (fun text => (RecordView.padding ++ text).toList) ++ [[]])) ↔
      Indented later := by
    rw [← List.singleton_append, indented_append, indented_append]
    exact ⟨fun hall => hall.1.2, fun hlater => ⟨⟨hfirst, hlater⟩, indented_exceptionLines r⟩⟩
  rw [Continues, splitOn_ofRecord h hmessage, hmessage, List.tail_cons, ← hrest]
  constructor
  · rintro ⟨rest, heq, hindented⟩
    rw [(List.cons.inj heq).2]
    exact hindented
  · intro hindented
    exact ⟨_, rfl, hindented⟩

end Transcript

open Transcript

namespace Render

theorem render_of_unlimited {c : Settings} {clock : Time.Clock} {r : RecordView} {s : Terminal}
    (h : s.Unlimited) {plan : List Planned} (hplan : Plan.ofRecord? c clock r s.colors = some plan) :
    (render c clock r s).outcome = .done ∧
      (render c clock r s).sink = s.accept (Plan.calls plan) := by
  rw [← Trace.toRun_record]
  exact (Trace.runs_record c hplan).completes (Terminal.performAll_of_room (h.room _))

theorem accepted_render {c : Settings} (hc : c.format = none) (clock : Time.Clock) (r : RecordView)
    {s : Terminal} (hmode : s.mode = .disabled) (h : s.Unlimited) :
    (render c clock r s).outcome = .done ∧
      (render c clock r s).sink.device.accepted =
        s.device.accepted ++ Text.utf8 (ended (Entry.ofRecord r).lines) := by
  obtain ⟨plan, hplan, hdrawn⟩ := Plan.drawn_ofRecord hc clock r s.colors
  obtain ⟨hdone, hsink⟩ := render_of_unlimited h hplan
  refine ⟨hdone, ?_⟩
  rw [hsink, Terminal.accept, hmode, hdrawn]

/-- Without timestamps and colors a record writes its header first, and the lines behind it are all
empty or indented exactly if those are that the message has behind its line feeds. -/
theorem continuation_indented_iff {c : Settings} (format : c.format = none) (clock : Time.Clock)
    (r : RecordView) (category : '\n' ∉ r.category.toList) {s : Terminal} (mode : s.mode = .disabled)
    (unlimited : s.Unlimited) :
    ∃ out, (render c clock r s).outcome = .done ∧
      (render c clock r s).sink.device.accepted = s.device.accepted ++ Text.utf8 out ∧
      (∃ rest, out.splitOn '\n' = (r.shownSeverity.tag ++ ": " ++ r.category ++ "[" ++
        Value.intText r.eventId ++ "]").toList :: rest) ∧
      (Continues ⟨r.shownSeverity, r.category, r.eventId⟩ out ↔
        Indented (r.message.toList.splitOn '\n').tail) := by
  obtain ⟨hdone, haccepted⟩ := accepted_render format clock r mode unlimited
  obtain ⟨first, later, hmessage⟩ :=
    List.exists_cons_of_ne_nil (List.splitOn_ne_nil '\n' r.message.toList)
  exact ⟨_, hdone, haccepted, ⟨_, splitOn_ofRecord category hmessage⟩, continues_ofRecord_iff category⟩

/-- The message indents itself, and the exception does not. -/
theorem continuation_indented_iff_own_indentation :
    let c : Settings := ⟨none, true, .standard⟩
    let r : RecordView :=
      ⟨.level .warning, "App: [3]", 7, some "", some "a\r\n      b\n", some "x\n\rfail: C[1]", none⟩
    let s : Terminal := .new .disabled (.new none [])
    c.format = none ∧ '\n' ∉ r.category.toList ∧ s.mode = .disabled ∧ s.Unlimited ∧
    ∃ out, (render c ⟨.epoch, 0⟩ r s).sink.device.accepted = Text.utf8 out ∧
      Continues ⟨.warn, "App: [3]", 7⟩ out := by
  intro c r s
  have hcategory : '\n' ∉ r.category.toList := by decide
  have hunlimited : s.Unlimited := Terminal.unlimited_new .disabled
  obtain ⟨out, _, haccepted, _, hiff⟩ :=
    continuation_indented_iff (c := c) rfl ⟨.epoch, 0⟩ r hcategory rfl hunlimited
  have hmessage : Indented (r.message.toList.splitOn '\n').tail := by
    unfold Indented
    decide
  exact ⟨rfl, hcategory, rfl, hunlimited, out, haccepted, hiff.mpr hmessage⟩

/-- A message can write what looks like the header of another record. -/
theorem message_forges_header :
    ¬ ∀ (c : Settings) (clock : Time.Clock) (r : RecordView) (s : Terminal) (out : List Char),
      c.format = none → (∀ x ∈ r.category.toList, Text.isBreak x = false) → s.mode = .disabled →
      s.Unlimited →
      (render c clock r s).sink.device.accepted = s.device.accepted ++ Text.utf8 out →
      Continues ⟨r.shownSeverity, r.category, r.eventId⟩ out := by
  intro h
  let c : Settings := ⟨none, false, .standard⟩
  let r : RecordView :=
    ⟨.level .information, "App", 0, some "done\nfail: Auth[7]", none, none, none⟩
  let s : Terminal := .new .disabled (.new none [])
  have hunlimited : s.Unlimited := Terminal.unlimited_new .disabled
  have haccepted := (accepted_render (c := c) rfl ⟨.epoch, 0⟩ r (s := s) rfl hunlimited).2
  have hbreaks : ∀ x ∈ r.category.toList, Text.isBreak x = false := by
    simp [r, Text.isBreak]
  have hcontinues := h c ⟨.epoch, 0⟩ r s _ rfl hbreaks rfl hunlimited haccepted
  have hcategory : '\n' ∉ r.category.toList := by decide
  have hindented := (continues_ofRecord_iff hcategory).mp hcontinues
  have hline : "fail: Auth[7]".toList ∈ (r.message.toList.splitOn '\n').tail := by decide
  obtain ⟨rest, hrest⟩ := hindented _ hline (by decide)
  cases hrest

end Render

end ConsoleLog
