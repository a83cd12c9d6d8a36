import ConsoleLog.Exporter
import ConsoleLog.Proofs.Plan

/-!
# Traces

A trace is a run together with the calls that it made, each with the sink before it. The traces of
records and batches are the runs of the renderer (`toRun_record`, `renderFrom_eq`), and their calls
lead from the first sink to the last (`follows_record`, `follows_history`).
-/

namespace ConsoleLog

/-- A call that was made, done or not, and the sink before it. -/
structure Attempt (σ : Type) where
  planned : Planned
  record : RecordView
  before : σ

structure Trace (σ ε : Type) extends Run σ ε where
  attempts : List (Attempt σ)

namespace Attempt

variable {σ : Type} [Sink σ]

def outcome (a : Attempt σ) : Outcome String := (Sink.perform a.before a.planned.call).1

def after (a : Attempt σ) : σ := (Sink.perform a.before a.planned.call).2

end Attempt

section
variable {σ : Type} [Sink σ]

/-- The calls lead from one sink to another. -/
def Follows : σ → List (Attempt σ) → σ → Prop
  | s, [], s' => s' = s
  | s, a :: as, s' => a.before = s ∧ Follows a.after as s'

/-- The calls of a plan, up to and with the first that is not done. -/
def attemptAll (r : RecordView) (s : σ) : List Planned → List (Attempt σ)
  | [] => []
  | p :: ps =>
    ⟨p, r, s⟩ :: match Sink.perform s p.call with
      | (.done, s') => attemptAll r s' ps
      | _ => []

theorem Follows.append {s s' s'' : σ} {as bs : List (Attempt σ)} (h : Follows s as s')
    (h' : Follows s' bs s'') : Follows s (as ++ bs) s'' := by
  induction as generalizing s with
  | nil =>
    cases h
    exact h'
  | cons a as ih => exact ⟨h.1, ih h.2⟩

theorem Follows.invariant {s s' : σ} {as : List (Attempt σ)} (h : Follows s as s') (P : σ → Prop)
    (hP : ∀ s c, P s → P (Sink.perform s c).2) (hs : P s) : P s' := by
  induction as generalizing s with
  | nil =>
    cases h
    exact hs
  | cons a as ih =>
    obtain ⟨rfl, h⟩ := h
    exact ih h (hP _ _ hs)

theorem attemptAll_cons_of_done {s s' : σ} {p : Planned} (r : RecordView)
    (h : Sink.perform s p.call = (.done, s')) (ps : List Planned) :
    attemptAll r s (p :: ps) = ⟨p, r, s⟩ :: attemptAll r s' ps := by
  rw [attemptAll, h]

theorem attemptAll_cons_of_ne_done {s : σ} {p : Planned} (r : RecordView)
    (h : (Sink.perform s p.call).1 ≠ .done) (ps : List Planned) :
    attemptAll r s (p :: ps) = [⟨p, r, s⟩] := by
  rw [attemptAll]
  split
  · rename_i s' hs
    rw [hs] at h
    exact absurd rfl h
  · rfl

theorem follows_attemptAll (r : RecordView) (s : σ) (ps : List Planned) :
    Follows s (attemptAll r s ps) (Sink.performAll s (Plan.calls ps)).2 := by
  induction ps generalizing s with
  | nil => rfl
  | cons p ps ih =>
    change Follows _ _ (Sink.performAll s (p.call :: Plan.calls ps)).2
    rcases Sink.perform_cases s p.call with ⟨s', h⟩ | h
    · rw [attemptAll_cons_of_done r h, Sink.performAll_cons_of_done h]
      refine ⟨rfl, ?_⟩
      rw [Attempt.after, h]
      exact ih s'
    · rw [attemptAll_cons_of_ne_done r h, Sink.performAll_cons_of_ne_done h]
      exact ⟨rfl, rfl⟩

/-- A call is made once all that the plan has before it are done. -/
theorem mem_attemptAll {r : RecordView} {s : σ} {ps : List Planned} {a : Attempt σ}
    (h : a ∈ attemptAll r s ps) :
    ∃ pre post, ps = pre ++ a.planned :: post ∧ a.record = r ∧
      Sink.performAll s (Plan.calls pre) = (.done, a.before) := by
  induction ps generalizing s with
  | nil => cases h
  | cons p ps ih =>
    rcases Sink.perform_cases s p.call with ⟨s', hp⟩ | hp
    · rw [attemptAll_cons_of_done r hp] at h
      cases h with
      | head => exact ⟨[], ps, rfl, rfl, rfl⟩
      | tail _ h =>
        obtain ⟨pre, post, rfl, hr, hpre⟩ := ih h
        refine ⟨p :: pre, post, rfl, hr, ?_⟩
        exact (Sink.performAll_cons_of_done hp _).trans hpre
    · rw [attemptAll_cons_of_ne_done r hp] at h
      cases List.mem_singleton.mp h
      exact ⟨[], ps, rfl, rfl, rfl⟩

theorem planned_of_mem_attemptAll {r : RecordView} {s : σ} {ps : List Planned} {a : Attempt σ}
    (h : a ∈ attemptAll r s ps) : a.planned ∈ ps := by
  obtain ⟨pre, post, rfl, _⟩ := mem_attemptAll h
  simp

theorem outcome_of_performAll_done {r : RecordView} {s s' : σ} {ps : List Planned}
    (h : Sink.performAll s (Plan.calls ps) = (.done, s')) :
    ∀ a ∈ attemptAll r s ps, a.outcome = .done := by
  intro a ha
  obtain ⟨pre, post, rfl, _, hpre⟩ := mem_attemptAll ha
  rw [Plan.calls_append, Sink.performAll_append_of_done hpre] at h
  obtain ⟨s₁, hdone, _⟩ := Sink.performAll_cons_done h
  exact congrArg Prod.fst hdone

theorem plan_cases (s : σ) (ps : List Planned) :
    (∃ s', Sink.performAll s (Plan.calls ps) = (.done, s')) ∨
    ∃ pre p post s', ps = pre ++ p :: post ∧ Sink.performAll s (Plan.calls pre) = (.done, s') ∧
      (Sink.perform s' p.call).1 ≠ .done ∧
      Sink.performAll s (Plan.calls ps) = Sink.perform s' p.call := by
  rcases Sink.performAll_cases s (Plan.calls ps) with h | ⟨cpre, c, cpost, s', hsplit, hpre, hc, hall⟩
  · exact Or.inl h
  · obtain ⟨pre, rest, rfl, rfl, hrest⟩ := List.map_eq_append_iff.mp hsplit
    obtain ⟨p, post, rfl, rfl, rfl⟩ := List.map_eq_cons_iff.mp hrest
    exact Or.inr ⟨pre, p, post, s', rfl, hpre, hc, hall⟩

theorem attemptAll_of_stop {r : RecordView} {s s' : σ} {pre post : List Planned} {p : Planned}
    (hpre : Sink.performAll s (Plan.calls pre) = (.done, s'))
    (hp : (Sink.perform s' p.call).1 ≠ .done) :
    attemptAll r s (pre ++ p :: post) = attemptAll r s pre ++ [⟨p, r, s'⟩] := by
  induction pre generalizing s with
  | nil =>
    cases hpre
    exact attemptAll_cons_of_ne_done r hp post
  | cons q pre ih =>
    obtain ⟨s₁, hq, hpre⟩ := Sink.performAll_cons_done hpre
    rw [List.cons_append, attemptAll_cons_of_done r hq, attemptAll_cons_of_done r hq, ih hpre]
    rfl

theorem exists_attempt_of_ne_done {r : RecordView} {s : σ} {ps : List Planned}
    (h : (Sink.performAll s (Plan.calls ps)).1 ≠ .done) :
    ∃ a ∈ attemptAll r s ps, a.outcome = (Sink.performAll s (Plan.calls ps)).1 := by
  rcases plan_cases s ps with ⟨s', hs⟩ | ⟨pre, p, post, s', rfl, hpre, hp, hall⟩
  · rw [hs] at h
    exact absurd rfl h
  · refine ⟨⟨p, r, s'⟩, ?_, (congrArg Prod.fst hall).symm⟩
    rw [attemptAll_of_stop hpre hp]
    simp

end

namespace Trace

variable {σ ε δ : Type}

def silent (r : Run σ ε) : Trace σ ε := ⟨r, []⟩

def andThen (t : Trace σ ε) (next : σ → Trace σ ε) : Trace σ ε :=
  match t.outcome with
  | .done =>
    let t' := next t.sink
    ⟨{ t'.toRun with events := t.events ++ t'.events }, t.attempts ++ t'.attempts⟩
  | _ => t

def mapError (f : ε → δ) (t : Trace σ ε) : Trace σ δ := ⟨t.toRun.mapError f, t.attempts⟩

theorem andThen_of_done {t : Trace σ ε} (h : t.outcome = .done) (next : σ → Trace σ ε) :
    t.andThen next =
      ⟨{ (next t.sink).toRun with events := t.events ++ (next t.sink).events },
        t.attempts ++ (next t.sink).attempts⟩ := by
  rw [andThen, h]

theorem andThen_of_ne_done {t : Trace σ ε} (h : t.outcome ≠ .done) (next : σ → Trace σ ε) :
    t.andThen next = t := by
  rw [andThen]
  split
  · rename_i ht
    exact absurd ht h
  · rfl

theorem toRun_andThen (t : Trace σ ε) (next : σ → Trace σ ε) :
    (t.andThen next).toRun = t.toRun.andThen fun s => (next s).toRun := by
  by_cases h : t.outcome = .done
  · rw [andThen_of_done h, Run.andThen, h]
  · rw [andThen_of_ne_done h, Run.andThen]
    split
    · rename_i ht
      exact absurd ht h
    · rfl

theorem mem_attempts_andThen {t : Trace σ ε} {next : σ → Trace σ ε} {a : Attempt σ}
    (h : a ∈ (t.andThen next).attempts) : a ∈ t.attempts ∨ a ∈ (next t.sink).attempts := by
  by_cases ht : t.outcome = .done
  · rw [andThen_of_done ht] at h
    exact List.mem_append.mp h
  · rw [andThen_of_ne_done ht] at h
    exact Or.inl h

theorem mem_events_andThen {t : Trace σ ε} {next : σ → Trace σ ε} {x : Event}
    (h : x ∈ (t.andThen next).events) : x ∈ t.events ∨ x ∈ (next t.sink).events := by
  by_cases ht : t.outcome = .done
  · rw [andThen_of_done ht] at h
    exact List.mem_append.mp h
  · rw [andThen_of_ne_done ht] at h
    exact Or.inl h

theorem follows_andThen [Sink σ] {s : σ} {t : Trace σ ε} {next : σ → Trace σ ε}
    (h : Follows s t.attempts t.sink) (hn : ∀ s, Follows s (next s).attempts (next s).sink) :
    Follows s (t.andThen next).attempts (t.andThen next).sink := by
  by_cases ht : t.outcome = .done
  · rw [andThen_of_done ht]
    exact h.append (hn t.sink)
  · rw [andThen_of_ne_done ht]
    exact h

end Trace

/-! ## Records -/

namespace Render

variable {σ : Type} [Sink σ]

theorem drawTag_of_aborted {c : Settings} {r : RecordView} {s s₁ : σ} {m : String}
    (h : Sink.performAll s (Plan.calls (Plan.colored c r)) = (.aborted m, s₁)) :
    drawTag r.shownSeverity (Plan.tagColors c r) s = (.aborted m, s₁) := by
  rw [Plan.calls_colored] at h
  simp only [drawTag, h]

/-- Short of an abort the colors from before are set again, and the first failure counts. -/
theorem drawTag_of_not_aborted {c : Settings} {r : RecordView} {s s₁ : σ} {o : Outcome String}
    (h : Sink.performAll s (Plan.calls (Plan.colored c r)) = (o, s₁)) (ho : ∀ m, o ≠ .aborted m) :
    drawTag r.shownSeverity (Plan.tagColors c r) s =
      (match (Sink.performAll s₁ (Plan.calls (Plan.restoring (Sink.colors s)))).1 with
        | .aborted m => .aborted m
        | restored => o.first restored,
      (Sink.performAll s₁ (Plan.calls (Plan.restoring (Sink.colors s)))).2) := by
  rw [Plan.calls_colored] at h
  rw [Plan.calls_restoring]
  cases o with
  | aborted m => exact absurd rfl (ho m)
  | done =>
    simp only [drawTag, h]
    split <;> simp_all
  | failed m =>
    simp only [drawTag, h]
    split <;> simp_all

end Render

namespace Trace

variable {σ : Type} [Sink σ] (c : Settings)

def timestamp (clock : Time.Clock) (r : RecordView) (s : σ) : Trace σ RenderError :=
  ⟨Render.drawTimestamp c clock r s,
    match Plan.timestamp? c clock r with
    | some ps => attemptAll r s ps
    | none => []⟩

def tagAttempts (r : RecordView) (s : σ) : List (Attempt σ) :=
  let written := Sink.performAll s (Plan.calls (Plan.colored c r))
  attemptAll r s (Plan.colored c r) ++ match written.1 with
    | .aborted _ => []
    | _ => attemptAll r written.2 (Plan.restoring (Sink.colors s))

def tag (r : RecordView) (s : σ) : Trace σ RenderError :=
  ⟨.ofCalls .sink (Render.drawTag r.shownSeverity (Plan.tagColors c r) s), tagAttempts c r s⟩

theorem tag_of_aborted {r : RecordView} {s s₁ : σ} {m : String}
    (h : Sink.performAll s (Plan.calls (Plan.colored c r)) = (.aborted m, s₁)) :
    tag c r s = ⟨⟨.aborted m, s₁, []⟩, attemptAll r s (Plan.colored c r)⟩ := by
  simp only [tag, tagAttempts, Render.drawTag_of_aborted h, h, List.append_nil]
  rfl

theorem tag_of_not_aborted {r : RecordView} {s s₁ : σ} {o : Outcome String}
    (h : Sink.performAll s (Plan.calls (Plan.colored c r)) = (o, s₁)) (ho : ∀ m, o ≠ .aborted m) :
    (tag c r s).attempts =
      attemptAll r s (Plan.colored c r) ++
        attemptAll r s₁ (Plan.restoring (Sink.colors s)) ∧
    (tag c r s).sink = (Sink.performAll s₁ (Plan.calls (Plan.restoring (Sink.colors s)))).2 ∧
    ((tag c r s).outcome = .done ↔
      o = .done ∧ (Sink.performAll s₁ (Plan.calls (Plan.restoring (Sink.colors s)))).1 = .done) := by
  simp only [tag, tagAttempts, Run.ofCalls, Render.drawTag_of_not_aborted h ho, h]
  generalize Sink.performAll s₁ (Plan.calls (Plan.restoring (Sink.colors s))) = restored
  cases o with
  | aborted m => exact absurd rfl (ho m)
  | done => cases restored.1 <;> simp [Outcome.first, Outcome.map]
  | failed m => cases restored.1 <;> simp [Outcome.first, Outcome.map]

theorem tag_aborted_iff {r : RecordView} {s s₁ : σ} {o : Outcome String}
    (h : Sink.performAll s (Plan.calls (Plan.colored c r)) = (o, s₁)) (ho : ∀ m, o ≠ .aborted m)
    (m : String) : (tag c r s).outcome = .aborted m ↔
      (Sink.performAll s₁ (Plan.calls (Plan.restoring (Sink.colors s)))).1 = .aborted m := by
  simp only [tag, Run.ofCalls, Render.drawTag_of_not_aborted h ho]
  generalize Sink.performAll s₁ (Plan.calls (Plan.restoring (Sink.colors s))) = restored
  cases o with
  | aborted m => exact absurd rfl (ho m)
  | done => cases restored.1 <;> simp [Outcome.first, Outcome.map]
  | failed m => cases restored.1 <;> simp [Outcome.first, Outcome.map]

def lines (r : RecordView) (s : σ) : Trace σ RenderError :=
  ⟨.ofCalls .sink (Sink.performAll s (r.lines.map .line)), attemptAll r s (Plan.lines r)⟩

def tagAndLines (r : RecordView) (s : σ) : Trace σ RenderError :=
  (tag c r s).andThen fun s => lines r s

def record (clock : Time.Clock) (r : RecordView) (s : σ) : Trace σ RenderError :=
  (timestamp c clock r s).andThen fun s =>
  (silent (Run.raise s (Render.severityEvents r))).andThen fun s => tagAndLines c r s

def batch (clock : Nat → Time.Clock) (i : Nat) (s : σ) : List RecordView → Trace σ ExportError
  | [] => silent (.idle s)
  | r :: rs =>
    ((record c (clock i) r s).mapError (⟨i, ·⟩)).andThen fun s => batch clock (i + 1) s rs

theorem toRun_record (clock : Time.Clock) (r : RecordView) (s : σ) :
    (record c clock r s).toRun = Render.render c clock r s := by
  simp only [record, tagAndLines, toRun_andThen]
  rfl

/-- A batch does the same whether the lock is poisoned or not. -/
theorem renderFrom_eq (clock : Nat → Time.Clock) (i : Nat) (l : Lock σ) (rs : List RecordView) :
    renderFrom c clock i l rs = l.after (batch c clock i l.value rs).toRun := by
  induction rs generalizing i l with
  | nil => exact l.after_idle.symm
  | cons r rs ih =>
    rw [batch, toRun_andThen, Lock.after_andThen, renderFrom, Lock.hold_eq]
    simp only [ih, mapError, toRun_record]

theorem record_of_timestamp_ne_done {clock : Time.Clock} {r : RecordView} {s : σ}
    (h : (timestamp c clock r s).outcome ≠ .done) :
    record c clock r s = timestamp c clock r s :=
  andThen_of_ne_done h _

theorem record_of_timestamp_done {clock : Time.Clock} {r : RecordView} {s : σ}
    (h : (timestamp c clock r s).outcome = .done) :
    (record c clock r s).attempts = (timestamp c clock r s).attempts ++
      (tagAndLines c r (timestamp c clock r s).sink).attempts ∧
    (record c clock r s).sink = (tagAndLines c r (timestamp c clock r s).sink).sink ∧
    (record c clock r s).outcome = (tagAndLines c r (timestamp c clock r s).sink).outcome := by
  have hraise : ∀ s : σ,
      (silent (Run.raise s (Render.severityEvents r)) : Trace σ RenderError).outcome = .done :=
    fun _ => rfl
  rw [record, andThen_of_done h, andThen_of_done (hraise _)]
  exact ⟨rfl, rfl, rfl⟩

theorem follows_timestamp (clock : Time.Clock) (r : RecordView) (s : σ) :
    Follows s (timestamp c clock r s).attempts (timestamp c clock r s).sink := by
  simp only [timestamp]
  split
  · rename_i ps h
    rw [(Render.drawTimestamp_of_some h s).2]
    exact follows_attemptAll r s ps
  · rename_i h
    obtain ⟨f, _, _, hs⟩ := Render.drawTimestamp_of_none h s
    exact hs

theorem follows_tag (r : RecordView) (s : σ) : Follows s (tag c r s).attempts (tag c r s).sink := by
  have hfirst := follows_attemptAll r s (Plan.colored c r)
  cases h : Sink.performAll s (Plan.calls (Plan.colored c r)) with
  | mk o s₁ =>
    rw [h] at hfirst
    rcases o.aborted_cases with ⟨m, rfl⟩ | ho
    · rw [tag_of_aborted c h]
      exact hfirst
    · obtain ⟨ha, hs, _⟩ := tag_of_not_aborted c h ho
      rw [ha, hs]
      exact hfirst.append (follows_attemptAll r s₁ _)

theorem follows_lines (r : RecordView) (s : σ) : Follows s (lines r s).attempts (lines r s).sink := by
  have := follows_attemptAll r s (Plan.lines r)
  rw [Plan.calls_lines] at this
  exact this

theorem follows_record (clock : Time.Clock) (r : RecordView) (s : σ) :
    Follows s (record c clock r s).attempts (record c clock r s).sink := by
  refine follows_andThen (follows_timestamp c clock r s) fun s => ?_
  refine follows_andThen (show Follows s _ s from rfl) fun s => ?_
  exact follows_andThen (follows_tag c r s) fun s => follows_lines r s

theorem follows_batch (clock : Nat → Time.Clock) (i : Nat) (s : σ) (rs : List RecordView) :
    Follows s (batch c clock i s rs).attempts (batch c clock i s rs).sink := by
  induction rs generalizing i s with
  | nil => rfl
  | cons r rs ih =>
    rw [batch]
    exact follows_andThen (follows_record c (clock i) r s) fun s => ih (i + 1) s

section
variable [LawfulSink σ]

theorem colors_timestamp (clock : Time.Clock) (r : RecordView) (s : σ) :
    Sink.colors (timestamp c clock r s).sink = Sink.colors s := by
  simp only [timestamp]
  cases h : Plan.timestamp? c clock r with
  | none =>
    obtain ⟨f, _, _, hs⟩ := Render.drawTimestamp_of_none h s
    rw [hs]
  | some ps =>
    rw [(Render.drawTimestamp_of_some h s).2]
    exact Sink.colors_performAll_of_written s (Plan.written_timestamp h)

theorem colors_lines (r : RecordView) (s : σ) :
    Sink.colors (lines r s).sink = Sink.colors s := by
  have hw := Plan.written_lines r
  rw [Plan.calls_lines] at hw
  exact Sink.colors_performAll_of_written s hw

end

end Trace

/-- Without text for its timestamp a record makes no call. -/
theorem Render.outcome_of_unformatted {σ : Type} [Sink σ] {c : Settings} {clock : Time.Clock}
    {r : RecordView} {f : Time.Format} (h : Plan.timestamp? c clock r = none)
    (hf : c.format = some f) (s : σ) :
    (render c clock r s).outcome = .failed (.timestamp f.text) ∧ (render c clock r s).sink = s := by
  obtain ⟨f', hf', hout, hsink⟩ := drawTimestamp_of_none h s
  rw [hf] at hf'
  cases hf'
  have hne : (Trace.timestamp c clock r s).outcome ≠ .done := by
    simp [Trace.timestamp, hout]
  rw [← Trace.toRun_record, Trace.record_of_timestamp_ne_done c hne]
  exact ⟨hout, hsink⟩

theorem Trace.record_of_unformatted {σ : Type} [Sink σ] {c : Settings} {clock : Time.Clock}
    {r : RecordView} (h : Plan.timestamp? c clock r = none) (s : σ) :
    (record c clock r s).outcome ≠ .done ∧ (record c clock r s).sink = s := by
  obtain ⟨f, hf, _⟩ := Render.drawTimestamp_of_none h s
  obtain ⟨hout, hsink⟩ := Render.outcome_of_unformatted h hf s
  rw [← toRun_record] at hout hsink
  refine ⟨?_, hsink⟩
  rw [hout]
  simp

/-! ## Operations and sessions -/

namespace Operation

def isShutdown : Operation → Bool
  | .shutdown => true
  | _ => false

/-- What an operation answers when what it renders ends so. -/
def replyFor {σ : Type} (e : Exporter σ) (o : Outcome ExportError) : Operation → Reply
  | .export _ =>
    if e.isShutdown then .exported (.failed .alreadyShutdown)
    else .exported (o.map fun error => .internal error.message)
  | .exportBatch _ => .batch o
  | .shutdown => .shutdown
  | .describe => .description e.describe

def notes (o : Outcome ExportError) : Operation → List Event
  | .export _ =>
    match o with
    | .failed error => [.exportFailed error.message]
    | _ => []
  | _ => []

end Operation

namespace Exporter

variable {σ : Type} [Sink σ]

def rendered (e : Exporter σ) : Operation → List RecordView
  | .export rs => if e.isShutdown then [] else rs.map LogRecord.view
  | .exportBatch rs => rs
  | _ => []

def history (clock : Nat → Nat → Time.Clock) (e : Exporter σ) : List Operation → List (Attempt σ)
  | [] => []
  | op :: ops =>
    (Trace.batch e.settings (clock 0) 0 e.sink (e.rendered op)).attempts ++
      history (fun n => clock (n + 1)) (e.step (clock 0) op).exporter ops

def lastSink (clock : Nat → Nat → Time.Clock) (e : Exporter σ) (ops : List Operation) : σ :=
  ((e.session clock ops).getLast?.map (·.exporter.sink)).getD e.sink

/-- An operation in terms of the trace of what it renders. -/
theorem step_eq (clock : Nat → Time.Clock) (e : Exporter σ) (op : Operation) :
    e.step clock op =
      ⟨op.replyFor e (Trace.batch e.settings clock 0 e.sink (e.rendered op)).outcome,
        ⟨e.settings, e.lock.release (Trace.batch e.settings clock 0 e.sink (e.rendered op)).sink
            (Trace.batch e.settings clock 0 e.sink (e.rendered op)).outcome.isAborted,
          e.isShutdown || op.isShutdown⟩,
        (Trace.batch e.settings clock 0 e.sink (e.rendered op)).events ++
          op.notes (Trace.batch e.settings clock 0 e.sink (e.rendered op)).outcome⟩ := by
  rw [sink_eq]
  obtain ⟨c, l, flag⟩ := e
  have hbatch : ∀ rs, renderBatch c clock l rs = l.after (Trace.batch c clock 0 l.value rs).toRun :=
    Trace.renderFrom_eq c clock 0 l
  have hidle : l.release (Trace.batch c clock 0 l.value []).sink
      (Trace.batch c clock 0 l.value []).outcome.isAborted = l := l.release_self
  cases op with
  | «export» rs =>
    cases flag with
    | true =>
      simp only [step, rendered, ↓reduceIte, hidle]
      rfl
    | false =>
      simp only [step, exportRun, hbatch]
      rfl
  | exportBatch rs =>
    simp only [step, hbatch, Operation.isShutdown, Bool.or_false, Operation.notes, List.append_nil]
    rfl
  | shutdown =>
    simp only [step, rendered, hidle, Operation.isShutdown, Bool.or_true]
    rfl
  | describe =>
    simp only [step, rendered, hidle, Operation.isShutdown, Bool.or_false]
    rfl

theorem step_sink (clock : Nat → Time.Clock) (e : Exporter σ) (op : Operation) :
    (e.step clock op).exporter.sink =
      (Trace.batch e.settings clock 0 e.sink (e.rendered op)).sink := by
  rw [sink_eq, step_eq]
  rfl

theorem step_settings (clock : Nat → Time.Clock) (e : Exporter σ) (op : Operation) :
    (e.step clock op).exporter.settings = e.settings := by
  rw [step_eq]

theorem lastSink_cons (clock : Nat → Nat → Time.Clock) (e : Exporter σ) (op : Operation)
    (ops : List Operation) :
    e.lastSink clock (op :: ops) =
      (e.step (clock 0) op).exporter.lastSink (fun n => clock (n + 1)) ops := by
  unfold lastSink
  rw [session, List.getLast?_cons]
  cases (session (fun n => clock (n + 1)) (e.step (clock 0) op).exporter ops).getLast? with
  | none => rfl
  | some st => rfl

theorem follows_history (clock : Nat → Nat → Time.Clock) (e : Exporter σ) (ops : List Operation) :
    Follows e.sink (e.history clock ops) (e.lastSink clock ops) := by
  induction ops generalizing clock e with
  | nil => rfl
  | cons op ops ih =>
    rw [history, lastSink_cons]
    refine Follows.append ?_ (ih _ _)
    rw [step_sink]
    exact Trace.follows_batch e.settings (clock 0) 0 e.sink (e.rendered op)

end Exporter

end ConsoleLog
