import ConsoleLog.Proofs.Script

/-!
# No color leaks

Tags are written in the colors of their severity and all else in the colors that the session began
with, as long as nothing aborts and the calls that restore colors are done. `Keeps` is the invariant:
one trace after another keeps it, and so do records, batches and sessions.
-/

namespace ConsoleLog

section
variable {σ : Type} [Sink σ]

/-- The call does not abort, and is done if it sets the colors from before again. -/
def Attempt.Spared (a : Attempt σ) : Prop :=
  (∀ m, a.outcome ≠ .aborted m) ∧ (a.planned.restores → a.outcome = .done)

/-- A tag is written in the colors of the record's severity, and other text in the colors `q`. -/
def Attempt.InColors (policy : ColorPolicy) (q : ColorPair) (a : Attempt σ) : Prop :=
  match a.planned with
  | .tag severity =>
    severity = a.record.shownSeverity ∧ Sink.colors a.before = policy.colorsFor severity
  | .timestamp _ | .line _ => Sink.colors a.before = q
  | _ => True

def Trace.Keeps {ε : Type} (policy : ColorPolicy) (q : ColorPair) (t : Trace σ ε) : Prop :=
  (∀ a ∈ t.attempts, a.Spared) → (∀ a ∈ t.attempts, a.InColors policy q) ∧ Sink.colors t.sink = q

end

namespace Trace

section
variable {σ ε : Type} [Sink σ] {policy : ColorPolicy} {q : ColorPair}

theorem Keeps.andThen {t : Trace σ ε} {next : σ → Trace σ ε} (h : t.Keeps policy q)
    (hn : ∀ s, Sink.colors s = q → (next s).Keeps policy q) : (t.andThen next).Keeps policy q := by
  intro hs
  by_cases ht : t.outcome = .done
  · rw [andThen_of_done ht] at hs ⊢
    obtain ⟨h₁, hq⟩ := h fun a ha => hs a (List.mem_append_left _ ha)
    obtain ⟨h₂, hq'⟩ := hn t.sink hq fun a ha => hs a (List.mem_append_right _ ha)
    refine ⟨fun a ha => ?_, hq'⟩
    rcases List.mem_append.mp ha with ha | ha
    · exact h₁ a ha
    · exact h₂ a ha
  · rw [andThen_of_ne_done ht] at hs ⊢
    exact h hs

theorem inColors_restoring (r : RecordView) (s : σ) (p : ColorPair) :
    ∀ a ∈ attemptAll r s (Plan.restoring p), a.InColors policy q := by
  intro a ha
  have hr := Plan.restores_of_mem (planned_of_mem_attemptAll ha)
  unfold Attempt.InColors
  split
  · rename_i hp
    rw [hp] at hr
    cases hr
  · rename_i hp
    rw [hp] at hr
    cases hr
  · rename_i hp
    rw [hp] at hr
    cases hr
  · trivial

theorem performAll_restoring_of_spared {r : RecordView} {s : σ} {p : ColorPair}
    (h : ∀ a ∈ attemptAll r s (Plan.restoring p), a.Spared) :
    (Sink.performAll s (Plan.calls (Plan.restoring p))).1 = .done := by
  by_cases hd : (Sink.performAll s (Plan.calls (Plan.restoring p))).1 = .done
  · exact hd
  · obtain ⟨a, ha, ho⟩ := exists_attempt_of_ne_done (r := r) hd
    rw [← ho]
    exact (h a ha).2 (Plan.restores_of_mem (planned_of_mem_attemptAll ha))

end

section
variable {σ : Type} [Sink σ] [LawfulSink σ] {q : ColorPair} (c : Settings)

theorem inColors_of_written (policy : ColorPolicy) {r : RecordView} {s : σ} {ps : List Planned}
    (hq : Sink.colors s = q) (hps : ∀ d ∈ Plan.calls ps, d.written? ≠ none)
    (htag : ∀ severity, .tag severity ∉ ps) : ∀ a ∈ attemptAll r s ps, a.InColors policy q := by
  intro a ha
  obtain ⟨pre, post, rfl, _, hpre⟩ := mem_attemptAll ha
  have hpre' : Sink.colors a.before = q := by
    rw [Sink.colors_performAll_of_done hpre, hq, Call.recolorAll_of_written]
    intro d hd
    exact hps d (by rw [Plan.calls_append]; exact List.mem_append_left _ hd)
  unfold Attempt.InColors
  split
  · rename_i severity hp
    exact absurd (by simp [hp]) (htag severity)
  · exact hpre'
  · exact hpre'
  · trivial

theorem keeps_timestamp (clock : Time.Clock) (r : RecordView) {s : σ} (hq : Sink.colors s = q) :
    (timestamp c clock r s).Keeps c.policy q := by
  intro _
  refine ⟨?_, (colors_timestamp c clock r s).trans hq⟩
  simp only [timestamp]
  cases h : Plan.timestamp? c clock r with
  | none => simp
  | some ps =>
    refine inColors_of_written c.policy hq (Plan.written_timestamp h) fun severity => ?_
    intro hmem
    obtain ⟨text, ht⟩ := Plan.eq_timestamp_of_mem h hmem
    cases ht

theorem keeps_lines (r : RecordView) {s : σ} (hq : Sink.colors s = q) :
    (lines r s).Keeps c.policy q := by
  intro _
  refine ⟨?_, (colors_lines r s).trans hq⟩
  exact inColors_of_written c.policy hq (Plan.written_lines r) fun severity => by simp [Plan.lines]

theorem inColors_colored (r : RecordView) (s : σ) :
    ∀ a ∈ attemptAll r s (Plan.colored c r),
      a.InColors c.policy q := by
  intro a ha
  obtain ⟨pre, post, hps, hr, hpre⟩ := mem_attemptAll ha
  unfold Attempt.InColors
  rw [hr]
  rcases Plan.colored_eq_append hps with ⟨rfl, hx⟩ | ⟨rfl, hx⟩ | ⟨rfl, hx⟩
  · rw [hx]
    trivial
  · rw [hx]
    trivial
  · rw [hx]
    exact ⟨rfl, Sink.colors_performAll_of_done hpre⟩

theorem keeps_tag (r : RecordView) {s : σ} (hq : Sink.colors s = q) :
    (tag c r s).Keeps c.policy q := by
  intro hs
  cases h : Sink.performAll s (Plan.calls (Plan.colored c r)) with
  | mk o s₁ =>
    rcases o.aborted_cases with ⟨m, rfl⟩ | ho
    · obtain ⟨a, ha, hout⟩ := exists_attempt_of_ne_done (r := r)
        (show (Sink.performAll s (Plan.calls (Plan.colored c r))).1 ≠ .done by simp [h])
      rw [h] at hout
      rw [tag_of_aborted c h] at hs
      exact absurd hout ((hs a ha).1 m)
    · obtain ⟨hattempts, hsink, _⟩ := tag_of_not_aborted c h ho
      rw [hattempts] at hs ⊢
      have hdone := performAll_restoring_of_spared fun a ha => hs a (List.mem_append_right _ ha)
      have hall : Sink.performAll s₁ (Plan.calls (Plan.restoring (Sink.colors s))) = (.done, _) :=
        Prod.ext hdone rfl
      constructor
      · intro a ha
        rcases List.mem_append.mp ha with ha | ha
        · exact inColors_colored c r s a ha
        · exact inColors_restoring r s₁ _ a ha
      · rw [hsink, Sink.colors_performAll_of_done hall, Plan.recolorAll_restoring, hq]

theorem keeps_record (clock : Time.Clock) (r : RecordView) {s : σ} (hq : Sink.colors s = q) :
    (record c clock r s).Keeps c.policy q := by
  refine (keeps_timestamp c clock r hq).andThen fun s hq => ?_
  refine Keeps.andThen (fun _ => ⟨by simp [silent], hq⟩) fun s hq => ?_
  exact (keeps_tag c r hq).andThen fun s hq => keeps_lines c r hq

theorem keeps_batch (clock : Nat → Time.Clock) (i : Nat) {s : σ} (hq : Sink.colors s = q)
    (rs : List RecordView) : (batch c clock i s rs).Keeps c.policy q := by
  induction rs generalizing i s with
  | nil => exact fun _ => ⟨by simp [batch, silent], hq⟩
  | cons r rs ih =>
    rw [batch]
    exact Keeps.andThen (keeps_record c (clock i) r hq) fun s hq => ih (i + 1) hq

end

end Trace

namespace Exporter

theorem keeps_history {σ : Type} [Sink σ] [LawfulSink σ] (clock : Nat → Nat → Time.Clock)
    (e : Exporter σ) (ops : List Operation) (hs : ∀ a ∈ e.history clock ops, a.Spared) :
    (∀ a ∈ e.history clock ops, a.InColors e.settings.policy (Sink.colors e.sink)) ∧
      ∀ st ∈ e.session clock ops, Sink.colors st.exporter.sink = Sink.colors e.sink := by
  induction ops generalizing clock e with
  | nil => exact ⟨by simp [history], by simp [session]⟩
  | cons op ops ih =>
    rw [history] at hs ⊢
    rw [session]
    obtain ⟨hbatch, hq⟩ := Trace.keeps_batch e.settings (clock 0) 0 rfl (e.rendered op)
      fun a ha => hs a (List.mem_append_left _ ha)
    rw [← step_sink] at hq
    obtain ⟨hrest, hsteps⟩ := ih (fun n => clock (n + 1)) (e.step (clock 0) op).exporter
      fun a ha => hs a (List.mem_append_right _ ha)
    rw [step_settings, hq] at hrest
    rw [hq] at hsteps
    refine ⟨fun a ha => ?_, fun st hst => ?_⟩
    · rcases List.mem_append.mp ha with ha | ha
      · exact hbatch a ha
      · exact hrest a ha
    · cases hst with
      | head => exact hq
      | tail _ hst => exact hsteps st hst

theorem spared_history (clock : Nat → Nat → Time.Clock) (e : Exporter Script) (ops : List Operation)
    (noAbort : ∀ n m, (n, .abort m) ∉ e.sink.faults)
    (unhit : ∀ a ∈ e.history clock ops, a.planned.restores →
      e.sink.faults.lookup a.before.nextCall = none) :
    ∀ a ∈ e.history clock ops, a.Spared := by
  intro a ha
  have hfaults := (follows_history clock e ops).faults a ha
  constructor
  · intro m
    rw [← hfaults] at noAbort
    exact Script.perform_ne_aborted noAbort a.planned.call m
  · intro hr
    have hf : a.before.fault? a.planned.call = none := by
      rw [Script.fault?, Script.faultAt?_of_not_written (Planned.written?_call_of_restores hr), hfaults]
      exact unhit a ha hr
    change (a.before.perform a.planned.call).1 = _
    rw [Script.perform_of_clear hf]

/-- Over a whole session, tags are written in the colors of their severity, all other text in the
colors that the session began with, and every operation leaves those colors, failed or not. The
calls meant are all that the session makes: they lead from its first sink to its last. -/
theorem session_never_leaks_colors (clock : Nat → Nat → Time.Clock) (e : Exporter Script)
    (ops : List Operation) (noAbort : ∀ n m, (n, .abort m) ∉ e.sink.faults)
    (unhit : ∀ a ∈ e.history clock ops, a.planned.restores →
      e.sink.faults.lookup a.before.nextCall = none) :
    (∀ a ∈ e.history clock ops, a.InColors e.settings.policy e.sink.colors) ∧
    (∀ st ∈ e.session clock ops, st.exporter.sink.colors = e.sink.colors) ∧
    Follows e.sink (e.history clock ops) (e.lastSink clock ops) ∧
    (e.lastSink clock ops).journal =
      e.sink.journal ++ (e.history clock ops).map Attempt.entry := by
  obtain ⟨hcalls, hsteps⟩ := keeps_history clock e ops (spared_history clock e ops noAbort unhit)
  have hfollows := follows_history clock e ops
  exact ⟨hcalls, hsteps, hfollows, hfollows.journal⟩

/-- The three batches fail at a background color, at a tag and at a poisoned message. -/
theorem session_never_leaks_colors_failing :
    let r : RecordView :=
      ⟨.level .warning, "App", 7, some "secret", none, some "a\r\nb", none⟩
    let e : Exporter Script :=
      ⟨⟨none, true, .standard⟩,
        .new (.new ⟨.magenta, .darkBlue⟩ [(1, .failure "closed"), (6, .failure "closed")] (some "cre")),
        false⟩
    let ops : List Operation := [.exportBatch [r, r], .shutdown, .exportBatch [r], .exportBatch [r]]
    let clock : Nat → Nat → Time.Clock := fun _ _ => ⟨.epoch, 0⟩
    (∀ n m, (n, .abort m) ∉ e.sink.faults) ∧
    (∀ a ∈ e.history clock ops, a.planned.restores →
      e.sink.faults.lookup a.before.nextCall = none) ∧
    (∀ a ∈ e.history clock ops, a.InColors .standard ⟨.magenta, .darkBlue⟩) ∧
    (∀ st ∈ e.session clock ops, st.exporter.sink.colors = ⟨.magenta, .darkBlue⟩) ∧
    Follows e.sink (e.history clock ops) (e.lastSink clock ops) ∧
    (e.lastSink clock ops).journal = (e.history clock ops).map Attempt.entry := by
  intro r e ops clock
  have noAbort : ∀ n m, (n, .abort m) ∉ e.sink.faults := by simp [e, Script.new]
  have unhit : ∀ a ∈ e.history clock ops, a.planned.restores →
      e.sink.faults.lookup a.before.nextCall = none := by decide
  exact ⟨noAbort, unhit, session_never_leaks_colors clock e ops noAbort unhit⟩

end Exporter

end ConsoleLog
