import ConsoleLog.Exporter

/-!
# Sinks that answer alike

Two sinks in a simulation show the same colors and end every call in the same way. Whatever is drawn
on them then ends alike, raises the same events and leaves them in the simulation: one lemma for each
stretch of work, from lists of calls to batches. Of two locks only the sinks in them matter.
-/

namespace ConsoleLog

structure Simulation (σ τ : Type) [Sink σ] [Sink τ] where
  Related : σ → τ → Prop
  colors_eq {s : σ} {t : τ} (h : Related s t) : Sink.colors s = Sink.colors t
  outcome_eq {s : σ} {t : τ} (h : Related s t) (c : Call) :
    (Sink.perform s c).1 = (Sink.perform t c).1
  related_perform {s : σ} {t : τ} (h : Related s t) (c : Call) :
    Related (Sink.perform s c).2 (Sink.perform t c).2

/-- The runs end alike, with the same events and with related sinks. -/
structure Run.Alike {σ τ ε : Type} (R : σ → τ → Prop) (r : Run σ ε) (r' : Run τ ε) : Prop where
  outcome : r.outcome = r'.outcome
  events : r.events = r'.events
  sink : R r.sink r'.sink

namespace Run.Alike

variable {σ τ ε δ : Type} {R : σ → τ → Prop}

theorem andThen {r : Run σ ε} {r' : Run τ ε} {next : σ → Run σ ε} {next' : τ → Run τ ε}
    (h : r.Alike R r') (hn : ∀ s t, R s t → (next s).Alike R (next' t)) :
    (r.andThen next).Alike R (r'.andThen next') := by
  obtain ⟨hout, hevents, hsink⟩ := h
  have hnext := hn _ _ hsink
  unfold Run.andThen
  rw [← hout]
  split
  · exact ⟨hnext.outcome, by simp only [hevents, hnext.events], hnext.sink⟩
  · exact ⟨hout, hevents, hsink⟩

theorem mapError {r : Run σ ε} {r' : Run τ ε} (f : ε → δ) (h : r.Alike R r') :
    (r.mapError f).Alike R (r'.mapError f) :=
  ⟨congrArg (Outcome.map f) h.outcome, h.events, h.sink⟩

theorem raise {s : σ} {t : τ} (h : R s t) (events : List Event) :
    (Run.raise s events : Run σ ε).Alike R (Run.raise t events) :=
  ⟨rfl, rfl, h⟩

theorem ofCalls {r : Outcome String × σ} {r' : Outcome String × τ} (error : String → ε)
    (hout : r.1 = r'.1) (hsink : R r.2 r'.2) : (Run.ofCalls error r).Alike R (Run.ofCalls error r') :=
  ⟨congrArg (Outcome.map error) hout, rfl, hsink⟩

end Run.Alike

namespace Simulation

variable {σ τ : Type} [Sink σ] [Sink τ] (S : Simulation σ τ) {s : σ} {t : τ}

theorem performAll (h : S.Related s t) (cs : List Call) :
    (Sink.performAll s cs).1 = (Sink.performAll t cs).1 ∧
      S.Related (Sink.performAll s cs).2 (Sink.performAll t cs).2 := by
  induction cs generalizing s t with
  | nil => exact ⟨rfl, h⟩
  | cons c cs ih =>
    have hout := S.outcome_eq h c
    have hsink := S.related_perform h c
    simp only [Sink.performAll]
    cases hs : Sink.perform s c with
    | mk o s' =>
      cases ht : Sink.perform t c with
      | mk o' t' =>
        rw [hs, ht] at hout hsink
        cases hout
        cases o with
        | done => exact ih hsink
        | failed m => exact ⟨rfl, hsink⟩
        | aborted m => exact ⟨rfl, hsink⟩

theorem drawTag (h : S.Related s t) (severity : Severity) (p : ColorPair) :
    (Render.drawTag severity p s).1 = (Render.drawTag severity p t).1 ∧
      S.Related (Render.drawTag severity p s).2 (Render.drawTag severity p t).2 := by
  obtain ⟨hout, hsink⟩ := S.performAll h (Render.setColors p ++ [.text severity.tag])
  simp only [Render.drawTag, S.colors_eq h]
  cases hs : Sink.performAll s (Render.setColors p ++ [.text severity.tag]) with
  | mk o s₁ =>
    cases ht : Sink.performAll t (Render.setColors p ++ [.text severity.tag]) with
    | mk o' t₁ =>
      rw [hs, ht] at hout hsink
      cases hout
      obtain ⟨hout', hsink'⟩ := S.performAll hsink (Render.setColors (Sink.colors t))
      cases o with
      | aborted m => exact ⟨rfl, hsink⟩
      | done =>
        simp only [hout']
        split <;> exact ⟨rfl, hsink'⟩
      | failed m =>
        simp only [hout']
        split <;> exact ⟨rfl, hsink'⟩

variable (c : Settings)

theorem drawTimestamp (h : S.Related s t) (clock : Time.Clock) (r : RecordView) :
    (Render.drawTimestamp c clock r s).Alike S.Related (Render.drawTimestamp c clock r t) := by
  unfold Render.drawTimestamp
  cases c.format with
  | none => exact ⟨rfl, rfl, h⟩
  | some f =>
    simp only
    split
    · exact ⟨rfl, rfl, h⟩
    · refine (Run.Alike.raise h _).andThen fun s t h => ?_
      exact .ofCalls _ (S.outcome_eq h _) (S.related_perform h _)

theorem render (h : S.Related s t) (clock : Time.Clock) (r : RecordView) :
    (Render.render c clock r s).Alike S.Related (Render.render c clock r t) := by
  refine (S.drawTimestamp c h clock r).andThen fun s t h => ?_
  refine (Run.Alike.raise h _).andThen fun s t h => ?_
  obtain ⟨hout, hsink⟩ := S.drawTag h r.shownSeverity (c.policy.colorsFor r.shownSeverity)
  refine (Run.Alike.ofCalls _ hout hsink).andThen fun s t h => ?_
  obtain ⟨hout, hsink⟩ := S.performAll h (r.lines.map .line)
  exact .ofCalls _ hout hsink

/-- The sinks behind the locks are related, whichever of the locks is poisoned. -/
def Locked (l : Lock σ) (m : Lock τ) : Prop := S.Related l.value m.value

variable {l : Lock σ} {m : Lock τ}

theorem renderFrom (h : S.Locked l m) (clock : Nat → Time.Clock) (i : Nat) (rs : List RecordView) :
    (ConsoleLog.renderFrom c clock i l rs).Alike S.Locked (ConsoleLog.renderFrom c clock i m rs) := by
  induction rs generalizing i l m with
  | nil => exact ⟨rfl, rfl, h⟩
  | cons r rs ih =>
    rw [ConsoleLog.renderFrom, ConsoleLog.renderFrom, Lock.hold_eq, Lock.hold_eq]
    obtain ⟨hout, hevents, hsink⟩ := (S.render c h (clock i) r).mapError (ExportError.mk i)
    refine Run.Alike.andThen ⟨hout, hevents, hsink⟩ fun l m h => ?_
    exact ih h (i + 1)

theorem renderBatch (h : S.Locked l m) (clock : Nat → Time.Clock) (rs : List RecordView) :
    (ConsoleLog.renderBatch c clock l rs).Alike S.Locked (ConsoleLog.renderBatch c clock m rs) :=
  S.renderFrom c h clock 0 rs

theorem exportRun (h : S.Locked l m) (clock : Nat → Time.Clock) (rs : List LogRecord) :
    (ConsoleLog.exportRun c clock l rs).Alike S.Locked (ConsoleLog.exportRun c clock m rs) := by
  obtain ⟨hout, hevents, hsink⟩ := S.renderBatch c h clock (rs.map LogRecord.view)
  refine ⟨congrArg (Outcome.map _) hout, ?_, hsink⟩
  simp only [ConsoleLog.exportRun, hout, hevents]

/-- The flag of a shutdown has no say in the batches of views, and the poison of the locks in none. -/
theorem step {e : Exporter σ} {e' : Exporter τ} (hsettings : e.settings = e'.settings)
    (h : S.Related e.sink e'.sink) (clock : Nat → Time.Clock) {op : Operation}
    (draws : (∃ rs, op = .exportBatch rs) ∨
      (∃ rs, op = .export rs) ∧ e.isShutdown = false ∧ e'.isShutdown = false) :
    (e.step clock op).reply = (e'.step clock op).reply ∧
      (e.step clock op).events = (e'.step clock op).events ∧
      S.Related (e.step clock op).exporter.sink (e'.step clock op).exporter.sink := by
  rw [Exporter.sink_eq, Exporter.sink_eq] at *
  obtain ⟨c, l, flag⟩ := e
  obtain ⟨c', l', flag'⟩ := e'
  cases hsettings
  rcases draws with ⟨rs, rfl⟩ | ⟨⟨rs, rfl⟩, hlive, hlive'⟩
  · obtain ⟨hout, hevents, hsink⟩ := S.renderBatch c h clock rs
    exact ⟨congrArg Reply.batch hout, hevents, hsink⟩
  · cases hlive
    cases hlive'
    obtain ⟨hout, hevents, hsink⟩ := S.exportRun c h clock rs
    exact ⟨congrArg Reply.exported hout, hevents, hsink⟩

end Simulation

end ConsoleLog
