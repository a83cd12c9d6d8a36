import ConsoleLog.Proofs.Trace

/-!
# How far a plan gets

A trace runs a plan if it makes the plan's calls up to the end and is done, or up to the first call that
is not done and is not done either. Of the second case `Stops` says no more than that the sink left
comes from the one after that call: the colors from before may have been set again.
-/

namespace ConsoleLog

namespace Trace

section
variable {σ ε : Type} [Sink σ] {t : Trace σ ε} {s : σ} {ps qs : List Planned}

structure Completes (t : Trace σ ε) (s : σ) (ps : List Planned) : Prop where
  performed : Sink.performAll s (Plan.calls ps) = (.done, t.sink)
  outcome : t.outcome = .done

def Stops (t : Trace σ ε) (s : σ) (ps : List Planned) : Prop :=
  t.outcome ≠ .done ∧ ∃ pre p post s', ps = pre ++ p :: post ∧
    Sink.performAll s (Plan.calls pre) = (.done, s') ∧ (Sink.perform s' p.call).1 ≠ .done ∧
    ∃ as, Follows (Sink.perform s' p.call).2 as t.sink

def Runs (t : Trace σ ε) (s : σ) (ps : List Planned) : Prop := t.Completes s ps ∨ t.Stops s ps

theorem Stops.append (h : t.Stops s ps) (qs : List Planned) : t.Stops s (ps ++ qs) := by
  obtain ⟨hout, pre, p, post, s', rfl, hpre, hp, hlater⟩ := h
  exact ⟨hout, pre, p, post ++ qs, s', by simp, hpre, hp, hlater⟩

theorem Stops.after {s₀ : σ} {qs : List Planned} (h : t.Stops s ps)
    (hqs : Sink.performAll s₀ (Plan.calls qs) = (.done, s)) : t.Stops s₀ (qs ++ ps) := by
  obtain ⟨hout, pre, p, post, s', rfl, hpre, hp, hlater⟩ := h
  refine ⟨hout, qs ++ pre, p, post, s', by simp, ?_, hp, hlater⟩
  rw [Plan.calls_append, Sink.performAll_append_of_done hqs]
  exact hpre

theorem Runs.andThen {next : σ → Trace σ ε} (h : t.Runs s ps)
    (hn : t.Completes s ps → (next t.sink).Runs t.sink qs) : (t.andThen next).Runs s (ps ++ qs) := by
  rcases h with h | h
  · rw [andThen_of_done h.outcome]
    rcases hn h with hq | hq
    · refine Or.inl ⟨?_, hq.outcome⟩
      rw [Plan.calls_append, Sink.performAll_append_of_done h.performed]
      exact hq.performed
    · exact Or.inr (hq.after h.performed)
  · rw [andThen_of_ne_done h.1]
    exact Or.inr (h.append qs)

theorem runs_of_performAll (hout : t.outcome = .done ↔ (Sink.performAll s (Plan.calls ps)).1 = .done)
    (hsink : t.sink = (Sink.performAll s (Plan.calls ps)).2) : t.Runs s ps := by
  rcases plan_cases s ps with ⟨s', h⟩ | ⟨pre, p, post, s', hps, hpre, hp, hall⟩
  · rw [h] at hout hsink
    refine Or.inl ⟨?_, hout.mpr rfl⟩
    rw [h, hsink]
  · rw [hall] at hout hsink
    exact Or.inr ⟨fun hdone => hp (hout.mp hdone), pre, p, post, s', hps, hpre, hp, [], hsink⟩

theorem Runs.completes {s' : σ} (h : t.Runs s ps)
    (hall : Sink.performAll s (Plan.calls ps) = (.done, s')) : t.outcome = .done ∧ t.sink = s' := by
  rcases h with h | ⟨_, pre, p, post, s₁, rfl, hpre, hp, _⟩
  · have hsink := h.performed.symm.trans hall
    exact ⟨h.outcome, congrArg Prod.snd hsink⟩
  · rw [Plan.calls_append, Sink.performAll_append_of_done hpre] at hall
    obtain ⟨_, hdone, _⟩ := Sink.performAll_cons_done hall
    exact absurd (congrArg Prod.fst hdone) hp

end

/-! ## Records -/

section
variable {σ : Type} [Sink σ] (c : Settings)

theorem runs_timestamp {clock : Time.Clock} {r : RecordView} {stamp : List Planned}
    (h : Plan.timestamp? c clock r = some stamp) (s : σ) : (timestamp c clock r s).Runs s stamp := by
  obtain ⟨hout, hsink⟩ := Render.drawTimestamp_of_some h s
  refine runs_of_performAll ?_ hsink
  rw [show (timestamp c clock r s).outcome = _ from hout]
  exact Outcome.map_eq_done_iff _ _

theorem runs_tag (r : RecordView) (s : σ) :
    (tag c r s).Runs s (Plan.colored c r ++ Plan.restoring (Sink.colors s)) := by
  rcases plan_cases s (Plan.colored c r) with ⟨s₁, h⟩ | ⟨pre, p, post, s', hps, hpre, hp, hall⟩
  · obtain ⟨_, hsink, hdone⟩ := tag_of_not_aborted c h (by simp)
    refine runs_of_performAll ?_ ?_
    · rw [Plan.calls_append, Sink.performAll_append_of_done h, hdone]
      exact and_iff_right rfl
    · rw [Plan.calls_append, Sink.performAll_append_of_done h, hsink]
  · refine Or.inr (Stops.append ?_ _)
    rw [hps]
    cases hp' : Sink.perform s' p.call with
    | mk o s₁ =>
      rw [hp'] at hp hall
      rcases o.aborted_cases with ⟨m, rfl⟩ | ho
      · rw [tag_of_aborted c hall]
        exact ⟨by simp, pre, p, post, s', rfl, hpre, by simp [hp'], [], by rw [hp']; rfl⟩
      · -- the colors from before are set again
        obtain ⟨_, hsink, hdone⟩ := tag_of_not_aborted c hall ho
        refine ⟨fun hout => hp (hdone.mp hout).1, pre, p, post, s', rfl, hpre, by rw [hp']; exact hp,
          attemptAll r s₁ (Plan.restoring (Sink.colors s)), ?_⟩
        rw [hsink, hp']
        exact follows_attemptAll r s₁ _

theorem runs_lines (r : RecordView) (s : σ) : (lines r s).Runs s (Plan.lines r) := by
  apply runs_of_performAll
  · rw [Plan.calls_lines]
    exact Outcome.map_eq_done_iff _ _
  · rw [Plan.calls_lines]
    rfl

theorem runs_record [LawfulSink σ] {clock : Time.Clock} {r : RecordView} {s : σ}
    {plan : List Planned} (h : Plan.ofRecord? c clock r (Sink.colors s) = some plan) :
    (record c clock r s).Runs s plan := by
  obtain ⟨stamp, hstamp, rfl⟩ := Option.map_eq_some_iff.mp h
  rw [List.append_assoc, List.append_assoc, ← List.append_assoc (Plan.colored c r)]
  refine (runs_timestamp c hstamp s).andThen fun hfirst => ?_
  rw [← colors_timestamp c clock r s]
  generalize (timestamp c clock r s).sink = s₁
  have hraise : (silent (Run.raise s₁ (Render.severityEvents r)) : Trace σ RenderError).Runs s₁ [] :=
    Or.inl ⟨rfl, rfl⟩
  refine hraise.andThen fun _ => ?_
  exact (runs_tag c r s₁).andThen fun _ => runs_lines r _

end

end Trace

end ConsoleLog
