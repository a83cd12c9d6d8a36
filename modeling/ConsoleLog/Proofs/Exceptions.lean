import ConsoleLog.Proofs.Batch
import ConsoleLog.Proofs.Endings
import ConsoleLog.Proofs.Journal
import ConsoleLog.Proofs.Progress

/-!
# Exceptions of a record

The kind and the message of an exception make one header, the stack trace stands below it, and each
of the three may be missing. The line feed between header and stack trace is an ending, so the lines of
both stay apart whatever they end or begin with.
-/

namespace ConsoleLog

namespace LogRecord

/-- What the attributes say of an exception: a header of its kind and its message, and its stack
trace. -/
def exceptionTexts (r : LogRecord) : List String :=
  let kind := (r.attribute? "exception.type").map Value.asText
  let message := (r.attribute? "exception.message").map Value.asText
  let trace := (r.attribute? "exception.stacktrace").map Value.asText
  let header := match kind, message with
    | some k, some m => [k ++ ": " ++ m]
    | some k, none => [k]
    | none, some m => [m]
    | none, none => []
  header ++ trace.toList

theorem exceptionLines_view (r : LogRecord) :
    r.view.exceptionLines = r.exceptionTexts.flatMap Text.transcriptLines := by
  have hseam : ∀ h t : String, Text.transcriptLines (h ++ "\n" ++ t) =
      Text.transcriptLines h ++ Text.transcriptLines t :=
    Text.transcriptLines_append_ending .lf
  show RecordView.exceptionLines { r.view with exception := r.exception } = _
  unfold RecordView.exceptionLines exception exceptionHeader exceptionTexts
  cases r.attribute? "exception.type" with
  | none =>
    cases r.attribute? "exception.message" with
    | none => cases r.attribute? "exception.stacktrace" <;> simp
    | some m => cases r.attribute? "exception.stacktrace" <;> simp [hseam]
  | some k =>
    cases r.attribute? "exception.message" with
    | none => cases r.attribute? "exception.stacktrace" <;> simp [hseam]
    | some m => cases r.attribute? "exception.stacktrace" <;> simp [hseam]

end LogRecord

/-! ## Sinks without faults -/

/-- All calls are done, whatever is asked for. -/
def Sink.Faultless {σ : Type} [Sink σ] (s : σ) : Prop := ∀ cs, (Sink.performAll s cs).1 = .done

namespace Script

theorem clear_of_no_faults {s : Script} (hfaults : s.faults = []) (hpoison : s.poison = none)
    (n : Nat) (cs : List Call) : s.Clear n cs := by
  induction cs generalizing n with
  | nil => trivial
  | cons c cs ih =>
    refine ⟨?_, ih (n + 1)⟩
    simp [faultAt?, isPoisoned, hfaults, hpoison]

theorem faultless_of_no_faults {s : Script} (hfaults : s.faults = []) (hpoison : s.poison = none) :
    Sink.Faultless s := by
  intro cs
  rw [performAll_of_clear (clear_of_no_faults hfaults hpoison s.nextCall cs)]

end Script

namespace Trace

variable {σ : Type} [Sink σ] (c : Settings)

theorem record_of_no_timestamp {clock : Time.Clock} {r : RecordView}
    (h : Plan.timestamp? c clock r = none) (s : σ) :
    ∃ f, c.format = some f ∧ (record c clock r s).outcome = .failed (.timestamp f.text) ∧
      (record c clock r s).attempts = [] := by
  obtain ⟨f, hf, hout, _⟩ := Render.drawTimestamp_of_none h s
  have hne : (timestamp c clock r s).outcome ≠ .done := by
    simp [timestamp, hout]
  rw [record_of_timestamp_ne_done c hne]
  exact ⟨f, hf, hout, by simp [timestamp, h]⟩

variable [LawfulSink σ]

theorem record_of_faultless {clock : Time.Clock} {r : RecordView} {s : σ} {plan : List Planned}
    (hs : Sink.Faultless s) (hplan : Plan.ofRecord? c clock r (Sink.colors s) = some plan) :
    (record c clock r s).outcome = .done ∧
      (record c clock r s).attempts.map (·.planned.call) = Plan.calls plan := by
  have hall : Sink.performAll s (Plan.calls plan) = (.done, _) := Prod.ext (hs _) rfl
  obtain ⟨hdone, _⟩ := (runs_record c hplan).completes hall
  obtain ⟨hplanned, _⟩ := planned_record c hdone
  rw [colors_timestamp, hplan] at hplanned
  refine ⟨hdone, ?_⟩
  rw [Option.some.inj hplanned, Plan.calls, List.map_map]
  rfl

/-- On a sink without faults the lines below a record's message are those of its exception's header
and then those of its stack trace, none of them empty and none lost. -/
theorem exception_drawn_in_lines (clock : Time.Clock) (r : LogRecord) {s : σ}
    (faultless : Sink.Faultless s) :
    let lines := r.exceptionTexts.flatMap Text.transcriptLines
    let drawing := record c clock r.view s
    drawing.toRun = Render.render c clock r.view s ∧ Follows s drawing.attempts drawing.sink ∧
    (∀ stamp, Plan.timestamp? c clock r.view = some stamp →
      drawing.outcome = .done ∧
      drawing.attempts.map (·.planned.call) =
        Plan.calls (stamp ++ Plan.colored c r.view ++ Plan.restoring (Sink.colors s)) ++
          [.line r.view.headerRest, .line ("      " ++ r.view.message)] ++
          lines.map fun line => .line ("      " ++ line)) ∧
    (Plan.timestamp? c clock r.view = none → ∃ f, c.format = some f ∧
      drawing.outcome = .failed (.timestamp f.text) ∧ drawing.attempts = []) ∧
    (∀ line ∈ lines, line ≠ "" ∧ '\r' ∉ line.toList ∧ '\n' ∉ line.toList) ∧
    (String.join lines).toList =
      (r.exceptionTexts.flatMap fun t => t.toList.filter fun c => c ≠ '\r' ∧ c ≠ '\n') ∧
    ((∀ key ∈ ["exception.type", "exception.message", "exception.stacktrace"],
      r.attribute? key = none) → lines = []) := by
  intro lines drawing
  refine ⟨toRun_record c clock r.view s, follows_record c clock r.view s, ?_, ?_, ?_, ?_, ?_⟩
  · intro stamp hstamp
    have hplan := Plan.ofRecord?_of_timestamp hstamp (Sink.colors s)
    obtain ⟨hdone, hcalls⟩ := record_of_faultless c faultless hplan
    refine ⟨hdone, ?_⟩
    rw [hcalls, Plan.calls_append, Plan.calls_lines, RecordView.lines, LogRecord.exceptionLines_view]
    simp [lines, RecordView.padding]
  · intro hstamp
    exact record_of_no_timestamp c hstamp s
  · intro line hline
    obtain ⟨text, _, hline⟩ := List.mem_flatMap.mp hline
    exact Text.ne_empty_of_mem_transcriptLines hline
  · exact Text.join_flatMap_transcriptLines r.exceptionTexts
  · intro habsent
    have htexts : r.exceptionTexts = [] := by
      simp [LogRecord.exceptionTexts, habsent]
    simp [lines, htexts]

end Trace

/-- The header ends in a carriage return, and the stack trace begins with line feeds. -/
theorem Trace.exception_drawn_in_lines_seam :
    let c : Settings := ⟨none, true, .standard⟩
    let r : LogRecord :=
      ⟨"App", none, some 17, none, some (.text "m"), [("exception.stacktrace", .text "\n\nat f\rat g\r\n"),
        ("exception.message", .bool true), ("exception.type", .text "E\r"),
        ("exception.message", .text "later")], none, none⟩
    let s : Script := .new ⟨.cyan, .default⟩ [] none
    Sink.Faultless s ∧ r.exceptionTexts = ["E\r: true", "\n\nat f\rat g\r\n"] ∧
    Plan.timestamp? c ⟨.epoch, 0⟩ r.view = some [] ∧
    (record c ⟨.epoch, 0⟩ r.view s).attempts.map (·.planned.call) =
      [.foreground .black, .background .darkRed, .text "fail", .foreground .cyan,
        .background .default, .line ": App[0]", .line "      m", .line "      E",
        .line "      : true", .line "      at f", .line "      at g"] := by
  intro c r s
  have hs : Sink.Faultless s := Script.faultless_of_no_faults rfl rfl
  have hstamp : Plan.timestamp? c ⟨.epoch, 0⟩ r.view = some [] := rfl
  have htexts : r.exceptionTexts = ["E\r: true", "\n\nat f\rat g\r\n"] := by decide
  obtain ⟨_, _, hdrawn, _⟩ := exception_drawn_in_lines c ⟨.epoch, 0⟩ r hs
  obtain ⟨_, hcalls⟩ := hdrawn [] hstamp
  refine ⟨hs, htexts, hstamp, ?_⟩
  rw [hcalls]
  decide

end ConsoleLog
