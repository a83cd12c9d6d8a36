import ConsoleLog.Proofs.Instant
import ConsoleLog.Proofs.Lifecycle

/-!
# Diagnostics of exports

An export of records makes the calls of their views' batch and answers accordingly. The events of a
batch are those of the records that were begun, one after the other; an export that fails raises one
more at the end.
-/

namespace ConsoleLog

/-! ## Events of a record -/

/-- The event of a timestamp that is to be shown and that the calendar does not cover. -/
def rangeEvents (c : Settings) : Option Time.Instant → List Event
  | some i => if c.format.isSome && !i.inCalendar then [.timestampOutOfRange i] else []
  | none => []

section
variable {σ : Type} [Sink σ]

/-- The timestamp has a text and the sink took it, or none is to be shown. -/
def stampDone (c : Settings) (clock : Time.Clock) (r : RecordView) (s : σ) : Bool :=
  match Plan.timestamp? c clock r with
  | some stamp => (Sink.performAll s (Plan.calls stamp)).1 = .done
  | none => false

def LogRecord.diagnostics (c : Settings) (clock : Time.Clock) (s : σ) (r : LogRecord) : List Event :=
  rangeEvents c (r.timestamp.or r.observed) ++
    if r.severity.severity = .unknown ∧ stampDone c clock r.view s then [.unknownSeverity r.severity]
    else []

end

/-! ## What a record raises -/

namespace Render

theorem moment_events (zone : Time.Zone) (clock : Time.Clock) (i : Time.Instant) :
    (moment zone clock i).2 = if i.inCalendar then [] else [.timestampOutOfRange i] := by
  unfold moment
  rw [Time.Instant.calendar?_eq]
  by_cases h : i.inCalendar
  · simp [h]
  · simp [h]

variable {σ : Type} [Sink σ]

/-- Without a timestamp the record has the present one, which raises nothing. -/
theorem drawTimestamp_events {c : Settings} {clock : Time.Clock} (r : RecordView) (s : σ)
    (hnow : clock.now.inCalendar = true) :
    (drawTimestamp c clock r s).events = rangeEvents c r.timestamp := by
  have hmoment := moment_events (c.zone clock) clock (r.timestamp.getD clock.now)
  have hrange : (c.format.isSome = true) →
      (if (r.timestamp.getD clock.now).inCalendar then []
        else [Event.timestampOutOfRange (r.timestamp.getD clock.now)]) = rangeEvents c r.timestamp := by
    intro hf
    cases r.timestamp with
    | none => simp [rangeEvents, hnow]
    | some i => by_cases hi : i.inCalendar <;> simp [rangeEvents, hf, hi]
  unfold drawTimestamp
  cases hf : c.format with
  | none =>
    cases r.timestamp with
    | none => rfl
    | some i => simp [rangeEvents, hf, Run.idle]
  | some f =>
    rw [hrange (by rw [hf]; rfl)] at hmoment
    simp only
    split
    · exact hmoment
    · simp [Run.andThen, Run.raise, Run.ofCalls, hmoment]

end Render

namespace Trace

variable {σ : Type} [Sink σ] (c : Settings)

theorem stampDone_iff (clock : Time.Clock) (r : RecordView) (s : σ) :
    stampDone c clock r s = true ↔ (timestamp c clock r s).outcome = .done := by
  unfold stampDone
  cases h : Plan.timestamp? c clock r with
  | none =>
    obtain ⟨f, _, hout, _⟩ := Render.drawTimestamp_of_none h s
    simp [timestamp, hout]
  | some stamp =>
    simp [timestamp, (Render.drawTimestamp_of_some h s).1, Outcome.map_eq_done_iff]

theorem events_tagAndLines (r : RecordView) (s : σ) : (tagAndLines c r s).events = [] := by
  rw [tagAndLines]
  by_cases h : (tag c r s).outcome = .done
  · rw [andThen_of_done h]
    rfl
  · rw [andThen_of_ne_done h]
    rfl

/-- Behind the timestamp a record raises what its severity raises, whatever fails later. -/
theorem events_record {clock : Time.Clock} (r : LogRecord) (s : σ)
    (hnow : clock.now.inCalendar = true) :
    (record c clock r.view s).events = r.diagnostics c clock s := by
  have hstamp : (timestamp c clock r.view s).events = rangeEvents c (r.timestamp.or r.observed) :=
    Render.drawTimestamp_events r.view s hnow
  rw [LogRecord.diagnostics]
  by_cases hdone : (timestamp c clock r.view s).outcome = .done
  · have hrest : ∀ s : σ, (silent (Run.raise s (Render.severityEvents r.view)) |>.andThen
        fun s => tagAndLines c r.view s).events = Render.severityEvents r.view := by
      intro s
      rw [andThen_of_done rfl]
      show _ ++ (tagAndLines c r.view s).events = _
      rw [events_tagAndLines, List.append_nil]
      rfl
    rw [record, andThen_of_done hdone]
    show (timestamp c clock r.view s).events ++ _ = _
    rw [hstamp, hrest, (stampDone_iff c clock r.view s).mpr hdone, Render.severityEvents]
    show _ ++ (if r.severity.severity = .unknown then _ else _) = _
    by_cases hunknown : r.severity.severity = .unknown
    · simp [hunknown, LogRecord.view]
    · simp [hunknown]
  · have hnot : stampDone c clock r.view s = false := by
      rw [Bool.eq_false_iff]
      exact fun h => hdone ((stampDone_iff c clock r.view s).mp h)
    rw [record_of_timestamp_ne_done c hdone, hstamp, hnot]
    simp

theorem outcome_batch_take {clock : Nat → Time.Clock} {i : Nat} {s : σ} {rs : List RecordView}
    (h : (batch c clock i s rs).outcome = .done) (k : Nat) :
    (batch c clock i s (rs.take k)).outcome = .done := by
  rw [← List.take_append_drop k rs, batch_append] at h
  exact outcome_of_andThen_done h

/-- A batch that fails is its records up to the failing one, and all before it succeed. -/
theorem batch_take_of_failed {clock : Nat → Time.Clock} {s : σ} {rs : List RecordView}
    {error : ExportError} (h : (batch c clock 0 s rs).outcome = .failed error) :
    error.index < rs.length ∧
      (∀ k ≤ error.index, (batch c clock 0 s (rs.take k)).outcome = .done) ∧
      batch c clock 0 s (rs.take (error.index + 1)) = batch c clock 0 s rs := by
  obtain ⟨pre, r, post, rfl, hpre, _, hall⟩ := batch_of_ne_done c (by rw [h]; simp)
  have hindex : error.index = pre.length := by
    rw [hall, batch_snoc, andThen_of_done hpre] at h
    obtain ⟨source, _, rfl⟩ := (Outcome.map_eq_failed_iff _ _ _).mp h
    exact Nat.zero_add _
  have htake : (pre ++ r :: post).take (pre.length + 1) = pre ++ [r] := by
    rw [List.take_length_add_append]
    rfl
  rw [hindex, htake, hall]
  refine ⟨by simp, fun k hk => ?_, rfl⟩
  rw [List.take_append_of_le_length hk]
  exact outcome_batch_take c hpre k

/-- The events of the first records of a batch, if all of them but the last succeed. -/
theorem events_batch_take {clock : Nat → Time.Clock} {s : σ} {rs : List LogRecord}
    (hnow : ∀ i, (clock i).now.inCalendar = true) {n : Nat} (hn : n ≤ rs.length)
    (hdone : ∀ k < n, (batch c clock 0 s ((rs.take k).map LogRecord.view)).outcome = .done) :
    (batch c clock 0 s ((rs.take n).map LogRecord.view)).events =
      (rs.take n).zipIdx.flatMap fun p =>
        p.1.diagnostics c (clock p.2) (batch c clock 0 s ((rs.take p.2).map LogRecord.view)).sink := by
  induction n with
  | zero => rfl
  | succ n ih =>
    have hlt : n < rs.length := hn
    have htake : rs.take (n + 1) = rs.take n ++ [rs[n]] := by
      rw [List.take_add_one, List.getElem?_eq_getElem hlt]
      rfl
    have hprior := ih (Nat.le_of_lt hlt) fun k hk => hdone k (by omega)
    have hfirst := hdone n (by omega)
    have hlength : ((rs.take n).map LogRecord.view).length = n := by
      rw [List.length_map, List.length_take_of_le (Nat.le_of_lt hlt)]
    rw [htake, List.map_append, List.map_singleton, batch_snoc, andThen_of_done hfirst, hlength,
      Nat.zero_add, List.zipIdx_append, List.flatMap_append, ← hprior]
    show _ ++ (record c (clock n) rs[n].view _).events = _
    rw [events_record c rs[n] _ (hnow n), List.length_take_of_le (Nat.le_of_lt hlt)]
    simp

/-- Only a call that aborts makes a batch abort. -/
theorem outcome_batch_ne_aborted {clock : Nat → Time.Clock} {i : Nat} {s : σ} {rs : List RecordView}
    (h : ∀ a ∈ (batch c clock i s rs).attempts, ∀ m, a.outcome ≠ .aborted m) (m : String) :
    (batch c clock i s rs).outcome ≠ .aborted m := by
  rcases contained_batch c clock i s rs with hquiet | ⟨a, m', habort⟩
  · exact hquiet.outcome m
  · obtain ⟨pre, hpre, _⟩ := habort.attempts
    have hmem : a ∈ (batch c clock i s rs).attempts := by
      rw [hpre]
      exact List.mem_append_right _ List.mem_cons_self
    exact absurd habort.aborts (h a hmem m')

end Trace

section
variable {σ : Type} [Sink σ]

namespace Exporter

/-- What the first `n` records of a batch raise, each on the sink as the ones before it left it. -/
def diagnostics (clock : Nat → Time.Clock) (e : Exporter σ) (rs : List LogRecord) (n : Nat) :
    List Event :=
  (rs.take n).zipIdx.flatMap fun p =>
    let before := e.step clock (.exportBatch ((rs.take p.2).map LogRecord.view))
    p.1.diagnostics e.settings (clock p.2) before.exporter.sink

theorem diagnostics_eq (clock : Nat → Time.Clock) (e : Exporter σ) (rs : List LogRecord) (n : Nat) :
    e.diagnostics clock rs n = (rs.take n).zipIdx.flatMap fun p =>
      p.1.diagnostics e.settings (clock p.2)
        (Trace.batch e.settings clock 0 e.sink ((rs.take p.2).map LogRecord.view)).sink := by
  simp only [diagnostics, step_exportBatch, sink_mk, Lock.value_release]

section
variable {clock : Nat → Time.Clock} {e : Exporter σ} {rs : List LogRecord}

theorem events_of_done (hnow : ∀ i, (clock i).now.inCalendar = true)
    (h : (Trace.batch e.settings clock 0 e.sink (rs.map LogRecord.view)).outcome = .done) :
    (Trace.batch e.settings clock 0 e.sink (rs.map LogRecord.view)).events =
      e.diagnostics clock rs rs.length := by
  have hprior : ∀ k < rs.length, (Trace.batch e.settings clock 0 e.sink
      ((rs.take k).map LogRecord.view)).outcome = .done := by
    intro k _
    rw [List.map_take]
    exact Trace.outcome_batch_take e.settings h k
  have hevents := Trace.events_batch_take e.settings hnow (Nat.le_refl rs.length) hprior
  rw [diagnostics_eq, ← hevents, List.take_length]

theorem events_of_failed (hnow : ∀ i, (clock i).now.inCalendar = true) {error : ExportError}
    (h : (Trace.batch e.settings clock 0 e.sink (rs.map LogRecord.view)).outcome = .failed error) :
    error.index < rs.length ∧
      (Trace.batch e.settings clock 0 e.sink (rs.map LogRecord.view)).events =
        e.diagnostics clock rs (error.index + 1) := by
  obtain ⟨hlt, hdone, hall⟩ := Trace.batch_take_of_failed e.settings h
  rw [List.length_map] at hlt
  have hprior : ∀ k < error.index + 1, (Trace.batch e.settings clock 0 e.sink
      ((rs.take k).map LogRecord.view)).outcome = .done := by
    intro k hk
    rw [List.map_take]
    exact hdone k (Nat.le_of_lt_succ hk)
  have hevents := Trace.events_batch_take e.settings hnow (Nat.succ_le_of_lt hlt) hprior
  rw [List.map_take, hall] at hevents
  refine ⟨hlt, ?_⟩
  rw [hevents, diagnostics_eq]

end

/-- An export makes the calls of the batch of its records' views and fails when that fails, with the
text of its error. Its events are the diagnostics of the records up to the failing one, and one for the
failure; the batch of the views raises the same but for the last. -/
theorem export_diagnoses {clock : Nat → Time.Clock} {e : Exporter σ} {rs : List LogRecord}
    (hlive : e.isShutdown = false) (hnow : ∀ i, (clock i).now.inCalendar = true)
    (hcalm : ∀ a ∈ e.attempts clock (.export rs), ∀ m, a.outcome ≠ .aborted m) :
    let views := Operation.exportBatch (rs.map LogRecord.view)
    let batch := e.step clock views
    let st := e.step clock (.export rs)
    e.attempts clock (.export rs) = e.attempts clock views ∧
    Follows e.sink (e.attempts clock (.export rs)) st.exporter.sink ∧
    st.exporter = batch.exporter ∧
    ((batch.reply = .batch .done ∧ batch.events = e.diagnostics clock rs rs.length ∧
        st.reply = .exported .done ∧ st.events = batch.events) ∨
      ∃ error, error.index < rs.length ∧ batch.reply = .batch (.failed error) ∧
        batch.events = e.diagnostics clock rs (error.index + 1) ∧
        st.reply = .exported (.failed (.internal error.message)) ∧
        st.events = batch.events ++ [.exportFailed error.message]) := by
  intro views batch st
  have hrendered : e.rendered (.export rs) = rs.map LogRecord.view := by
    rw [rendered, hlive]
    rfl
  have hsame : e.attempts clock (.export rs) = e.attempts clock views := by
    rw [attempts, hrendered]
    rfl
  have hbatch : batch = _ := step_exportBatch clock e (rs.map LogRecord.view)
  have hst : st = _ := step_eq clock e (.export rs)
  rw [hrendered] at hst
  refine ⟨hsame, ?_, ?_, ?_⟩
  · rw [show st.exporter.sink = _ from step_sink clock e (.export rs)]
    exact Trace.follows_batch e.settings clock 0 e.sink _
  · rw [hst, hbatch]
    simp [Operation.isShutdown]
  · rw [hst, hbatch, Operation.replyFor, hlive]
    cases hout : (Trace.batch e.settings clock 0 e.sink (rs.map LogRecord.view)).outcome with
    | done =>
      left
      exact ⟨rfl, events_of_done hnow hout, rfl, List.append_nil _⟩
    | failed error =>
      right
      obtain ⟨hlt, hevents⟩ := events_of_failed hnow hout
      exact ⟨error, hlt, rfl, hevents, rfl, rfl⟩
    | aborted m =>
      rw [attempts, hrendered] at hcalm
      exact absurd hout (Trace.outcome_batch_ne_aborted e.settings hcalm m)

end Exporter

end

/-- The timestamp of the second record is not taken, and its severity raises nothing. -/
theorem Exporter.export_diagnoses_failed_timestamp :
    let format : Time.Format := ⟨"%H ", [.number .hour .zeros, .literal ' '], by decide⟩
    let e : Exporter Script :=
      ⟨⟨some format, true, .standard⟩,
        .new (.new ⟨.magenta, .darkBlue⟩ [(8, .failure "closed")] none), false⟩
    let clock : Nat → Time.Clock := fun _ => ⟨.epoch, 0⟩
    let far : Time.Instant := ⟨Int64.minValue, 0, by decide⟩
    let r : LogRecord := ⟨"App", none, some 99, none, some (.text "m"), [], none, some far⟩
    let error : ExportError := ⟨1, .sink "closed"⟩
    (e.isShutdown = false ∧ (∀ i, (clock i).now.inCalendar = true) ∧
      ∀ a ∈ e.attempts clock (.export [r, r, r]), ∀ m, a.outcome ≠ .aborted m) ∧
    e.diagnostics clock [r, r, r] 2 =
      [.timestampOutOfRange far, .unknownSeverity (.number 99), .timestampOutOfRange far] ∧
    (e.step clock (.exportBatch ([r, r, r].map LogRecord.view))).events =
      e.diagnostics clock [r, r, r] 2 ∧
    (e.step clock (.export [r, r, r])).events =
      e.diagnostics clock [r, r, r] 2 ++ [.exportFailed error.message] := by
  intro format e clock far r error
  have hcalm : ∀ a ∈ e.attempts clock (.export [r, r, r]), ∀ m, a.outcome ≠ .aborted m := by
    have hall : ∀ a ∈ e.attempts clock (.export [r, r, r]),
        a.outcome = .done ∨ a.outcome = .failed "closed" := by decide
    intro a ha m
    rcases hall a ha with h | h
    · rw [h]
      simp
    · rw [h]
      simp
  have hnow : ∀ i, (clock i).now.inCalendar = true := fun _ => by decide
  have hreply : (e.step clock (.exportBatch ([r, r, r].map LogRecord.view))).reply =
      .batch (.failed error) := by decide
  obtain ⟨_, _, _, ⟨hdone, _⟩ | ⟨error', _, hfailed, hbatch, _, hst⟩⟩ :=
    export_diagnoses rfl hnow hcalm
  · rw [hdone] at hreply
    cases hreply
  · rw [hfailed] at hreply
    cases hreply
    rw [hbatch] at hst
    exact ⟨⟨rfl, hnow, hcalm⟩, by decide, hbatch, hst⟩

end ConsoleLog
