import ConsoleLog.Proofs.Script

/-!
# Restoration after one failure

When one call of a record fails, the colors from before are back afterwards unless a restoring call
is the one. A background that cannot be restored stays alone; a foreground that cannot be restored
leaves both colors of the severity, since the background is not tried after it.
-/

namespace ConsoleLog

namespace Attempt

variable {σ : Type} [Sink σ]

def failed (a : Attempt σ) : Bool := a.outcome ≠ .done

end Attempt

/-- The colors after a record whose one failing call is `planned`. -/
def colorsAfter (prior severity : ColorPair) (planned : Planned) : ColorPair :=
  match planned with
  | .priorForeground _ => severity
  | .priorBackground _ => { severity with foreground := prior.foreground }
  | _ => prior

/-- Each color is as it was, but for the one whose own restoring call is `planned`. -/
def RestoredBut (planned : Planned) (before after : ColorPair) : Prop :=
  (after.foreground = before.foreground ∨ ∃ c, planned = .priorForeground c) ∧
  (after.background = before.background ∨ ∃ c, planned = .priorBackground c)

theorem colorsAfter_of_not_restores {planned : Planned} (h : planned.restores = false)
    (prior severity : ColorPair) : colorsAfter prior severity planned = prior := by
  cases planned <;> first | rfl | cases h

theorem restoredBut_colorsAfter (prior severity : ColorPair) (planned : Planned) :
    RestoredBut planned prior (colorsAfter prior severity planned) ↔
      ¬ ((∃ c, planned = .priorForeground c) ∧ severity.background ≠ prior.background) := by
  unfold RestoredBut colorsAfter
  cases planned <;> simp

section
variable {σ : Type} [Sink σ] {r : RecordView}

theorem failures_of_done {s s' : σ} {ps : List Planned}
    (h : Sink.performAll s (Plan.calls ps) = (.done, s')) :
    (attemptAll r s ps).filter Attempt.failed = [] := by
  rw [List.filter_eq_nil_iff]
  intro a ha
  simp [Attempt.failed, outcome_of_performAll_done h a ha]

theorem failures_of_stop {s s' : σ} {pre post : List Planned} {p : Planned}
    (hpre : Sink.performAll s (Plan.calls pre) = (.done, s'))
    (hp : (Sink.perform s' p.call).1 ≠ .done) :
    (attemptAll r s (pre ++ p :: post)).filter Attempt.failed = [⟨p, r, s'⟩] := by
  have hf : Attempt.failed (⟨p, r, s'⟩ : Attempt σ) = true := decide_eq_true hp
  rw [attemptAll_of_stop hpre hp, List.filter_append, failures_of_done hpre]
  simp [hf]

variable [LawfulSink σ]

theorem colors_of_stop {s s' : σ} {pre post : List Planned} {p : Planned}
    (hpre : Sink.performAll s (Plan.calls pre) = (.done, s'))
    (hp : (Sink.perform s' p.call).1 ≠ .done) :
    Sink.colors (Sink.performAll s (Plan.calls (pre ++ p :: post))).2 =
      Call.recolorAll (Plan.calls pre) (Sink.colors s) := by
  rw [Plan.calls_append]
  exact Sink.colors_performAll_of_ne_done hpre hp

theorem restoring_cases (s : σ) (q : ColorPair) :
    ((attemptAll r s (Plan.restoring q)).filter Attempt.failed = [] ∧
      Sink.colors (Sink.performAll s (Plan.calls (Plan.restoring q))).2 = q) ∨
    ∃ a, (attemptAll r s (Plan.restoring q)).filter Attempt.failed = [a] ∧
      Sink.colors (Sink.performAll s (Plan.calls (Plan.restoring q))).2 =
        colorsAfter q (Sink.colors s) a.planned := by
  rcases plan_cases s (Plan.restoring q) with ⟨s', h⟩ | ⟨pre, p, post, s', hps, hpre, hp, _⟩
  · left
    refine ⟨failures_of_done h, ?_⟩
    rw [h]
    exact Sink.colors_performAll_of_done h
  · right
    refine ⟨⟨p, r, s'⟩, ?_, ?_⟩
    · rw [hps]
      exact failures_of_stop hpre hp
    · rw [hps, colors_of_stop hpre hp]
      rcases Plan.restoring_eq_append hps with ⟨rfl, rfl⟩ | ⟨rfl, rfl⟩ <;> rfl

theorem colors_restoring_of_no_failure {s : σ} {q : ColorPair}
    (h : (attemptAll r s (Plan.restoring q)).filter Attempt.failed = []) :
    Sink.colors (Sink.performAll s (Plan.calls (Plan.restoring q))).2 = q := by
  rcases restoring_cases (r := r) s q with ⟨_, hc⟩ | ⟨b, hb, _⟩
  · exact hc
  · rw [h] at hb
    cases hb

theorem colors_restoring_of_single_failure {s : σ} {q : ColorPair} {a : Attempt σ}
    (h : (attemptAll r s (Plan.restoring q)).filter Attempt.failed = [a]) :
    Sink.colors (Sink.performAll s (Plan.calls (Plan.restoring q))).2 =
      colorsAfter q (Sink.colors s) a.planned := by
  rcases restoring_cases (r := r) s q with ⟨hnil, _⟩ | ⟨b, hb, hc⟩
  · rw [h] at hnil
    cases hnil
  · rw [h] at hb
    rw [hc, (List.cons.inj hb).1]

theorem colored_cases (c : Settings) (s : σ) :
    ((attemptAll r s (Plan.colored c r)).filter Attempt.failed = [] ∧
      (Sink.performAll s (Plan.calls (Plan.colored c r))).1 = .done ∧
      Sink.colors (Sink.performAll s (Plan.calls (Plan.colored c r))).2 = Plan.tagColors c r) ∨
    ∃ a, (attemptAll r s (Plan.colored c r)).filter Attempt.failed = [a] ∧
      (Sink.performAll s (Plan.calls (Plan.colored c r))).1 = a.outcome ∧
      a.planned.restores = false := by
  rcases plan_cases s (Plan.colored c r) with ⟨s', h⟩ | ⟨pre, x, post, s', hps, hpre, hx, hall⟩
  · left
    refine ⟨failures_of_done h, by rw [h], ?_⟩
    rw [h]
    exact Sink.colors_performAll_of_done h
  · right
    refine ⟨⟨x, r, s'⟩, ?_, congrArg Prod.fst hall, ?_⟩
    · rw [hps]
      exact failures_of_stop hpre hx
    · exact Planned.restores_of_isColored (Plan.isColored_of_mem (c := c) (r := r) (by simp [hps]))

end

namespace Trace

variable {σ : Type} [Sink σ] (c : Settings)

theorem failures_timestamp_of_done {clock : Time.Clock} {r : RecordView} {s : σ}
    (h : (timestamp c clock r s).outcome = .done) :
    (timestamp c clock r s).attempts.filter Attempt.failed = [] := by
  simp only [timestamp] at h ⊢
  cases hp : Plan.timestamp? c clock r with
  | none => rfl
  | some ps =>
    rw [(Render.drawTimestamp_of_some hp s).1] at h
    have hdone : (Sink.performAll s (Plan.calls ps)).1 = .done := by
      cases ho : (Sink.performAll s (Plan.calls ps)).1 <;> rw [ho] at h <;> first | rfl | cases h
    have hall : Sink.performAll s (Plan.calls ps) = (.done, _) := Prod.ext hdone rfl
    exact failures_of_done hall

theorem restores_timestamp {clock : Time.Clock} {r : RecordView} {s : σ} {a : Attempt σ}
    (h : a ∈ (timestamp c clock r s).attempts) : a.planned.restores = false := by
  simp only [timestamp] at h
  cases hp : Plan.timestamp? c clock r with
  | none => simp [hp] at h
  | some ps =>
    rw [hp] at h
    obtain ⟨text, ht⟩ := Plan.eq_timestamp_of_mem hp (planned_of_mem_attemptAll h)
    rw [ht]
    rfl

theorem restores_lines {r : RecordView} {s : σ} {a : Attempt σ} (h : a ∈ (lines r s).attempts) :
    a.planned.restores = false := by
  obtain ⟨text, ht⟩ := Plan.eq_line_of_mem (planned_of_mem_attemptAll h)
  rw [ht]
  rfl

theorem mem_failures {t : Trace σ RenderError} {a : Attempt σ}
    (h : t.attempts.filter Attempt.failed = [a]) : a ∈ t.attempts :=
  (List.mem_filter.mp (by rw [h]; simp)).1

variable [LawfulSink σ]

theorem tag_of_done {r : RecordView} {s : σ} (hd : (tag c r s).outcome = .done) :
    (tag c r s).attempts.filter Attempt.failed = [] ∧
      Sink.colors (tag c r s).sink = Sink.colors s := by
  cases h : Sink.performAll s (Plan.calls (Plan.colored c r)) with
  | mk o s₁ =>
    rcases o.aborted_cases with ⟨m, rfl⟩ | ho
    · rw [tag_of_aborted c h] at hd
      cases hd
    · obtain ⟨hattempts, hsink, hout⟩ := tag_of_not_aborted c h ho
      obtain ⟨rfl, hrest⟩ := hout.mp hd
      have hall : Sink.performAll s₁ (Plan.calls (Plan.restoring (Sink.colors s))) = (.done, _) :=
        Prod.ext hrest rfl
      rw [hattempts, hsink, List.filter_append, failures_of_done h, failures_of_done hall]
      exact ⟨rfl, Sink.colors_performAll_of_done hall⟩

theorem tag_of_single_failure {r : RecordView} {s : σ} {a : Attempt σ}
    (one : (tag c r s).attempts.filter Attempt.failed = [a]) (hio : ∀ m, a.outcome ≠ .aborted m) :
    Sink.colors (tag c r s).sink = colorsAfter (Sink.colors s) (Plan.tagColors c r) a.planned := by
  cases h : Sink.performAll s (Plan.calls (Plan.colored c r)) with
  | mk o s₁ =>
    have hfirst := colored_cases (r := r) c s
    rw [h] at hfirst
    rcases o.aborted_cases with ⟨m, rfl⟩ | ho
    · rw [tag_of_aborted c h] at one
      rcases hfirst with ⟨_, ho, _⟩ | ⟨b, hf, hb, _⟩
      · cases ho
      · rw [hf] at one
        rw [(List.cons.inj one).1] at hb
        exact absurd hb.symm (hio m)
    · obtain ⟨hattempts, hsink, _⟩ := tag_of_not_aborted c h ho
      rw [hattempts, List.filter_append] at one
      rw [hsink]
      rcases hfirst with ⟨hf, _, hc⟩ | ⟨b, hf, _, hr⟩
      · -- the tag is written: the one failure is a restoring call
        rw [hf, List.nil_append] at one
        rw [colors_restoring_of_single_failure one, hc]
      · -- a colored call is the one failure, so both restoring calls are done
        rw [hf] at one
        obtain ⟨rfl, hnil⟩ := List.cons.inj one
        rw [colors_restoring_of_no_failure hnil, colorsAfter_of_not_restores hr]

theorem record_of_single_failure {clock : Time.Clock} {r : RecordView} {s : σ} {a : Attempt σ}
    (one : (record c clock r s).attempts.filter Attempt.failed = [a])
    (hio : ∀ m, a.outcome ≠ .aborted m) :
    Sink.colors (record c clock r s).sink =
      colorsAfter (Sink.colors s) (Plan.tagColors c r) a.planned := by
  have hstamp := colors_timestamp c clock r s
  by_cases ht : (timestamp c clock r s).outcome = .done
  · obtain ⟨hattempts, hsink, _⟩ := record_of_timestamp_done c ht
    rw [hattempts, List.filter_append, failures_timestamp_of_done c ht, List.nil_append] at one
    rw [hsink, ← hstamp]
    generalize (timestamp c clock r s).sink = s₁ at one ⊢
    by_cases hd : (tag c r s₁).outcome = .done
    · obtain ⟨hf, hc⟩ := tag_of_done c hd
      rw [tagAndLines, andThen_of_done hd, List.filter_append, hf, List.nil_append] at one
      rw [tagAndLines, andThen_of_done hd]
      rw [colors_lines, hc, colorsAfter_of_not_restores (restores_lines (mem_failures one))]
    · rw [tagAndLines, andThen_of_ne_done hd] at one ⊢
      exact tag_of_single_failure c one hio
  · rw [record_of_timestamp_ne_done c ht] at one ⊢
    rw [hstamp, colorsAfter_of_not_restores (restores_timestamp c (mem_failures one))]

end Trace

/-! ## Scripted sinks -/

namespace Render

/-- After the one failing call of a rendering, each color is as before but for the one whose own
restoring call it was, unless it was the foreground's and the backgrounds differ. -/
theorem restoredBut_iff_of_single_failure (c : Settings) (clock : Time.Clock) (r : RecordView)
    (s : Script) {a : Attempt Script}
    (one : (Trace.record c clock r s).attempts.filter Attempt.failed = [a])
    (io : ∀ m, a.outcome ≠ .aborted m) :
    (RestoredBut a.planned s.colors (render c clock r s).sink.colors ↔
      ¬ ((∃ p, a.planned = .priorForeground p) ∧
        (Plan.tagColors c r).background ≠ s.colors.background)) ∧
    (render c clock r s).sink.colors = colorsAfter s.colors (Plan.tagColors c r) a.planned ∧
    (render c clock r s).sink.journal =
      s.journal ++ (Trace.record c clock r s).attempts.map Attempt.entry := by
  have hrun := Trace.toRun_record c clock r s
  have hcolors : (render c clock r s).sink.colors =
      colorsAfter s.colors (Plan.tagColors c r) a.planned := by
    rw [← hrun]
    exact Trace.record_of_single_failure c one io
  refine ⟨?_, hcolors, ?_⟩
  · rw [hcolors]
    exact restoredBut_colorsAfter _ _ _
  · rw [← hrun]
    exact (Trace.follows_record c clock r s).journal

/-- The background of a critical record cannot be restored. -/
theorem restoredBut_iff_of_single_failure_background :
    let c : Settings := ⟨none, true, .standard⟩
    let r : RecordView := ⟨.level .critical, "C", 1, some "m", none, none, none⟩
    let s : Script := .new ⟨.cyan, .darkBlue⟩ [(4, .failure "boom")] none
    let a : Attempt Script :=
      ⟨.priorBackground .darkBlue, r, (Sink.performAll s
        [.foreground .white, .background .darkRed, .text "crit", .foreground .cyan]).2⟩
    (Trace.record c ⟨.epoch, 0⟩ r s).attempts.filter Attempt.failed = [a] ∧
    (∀ m, a.outcome ≠ .aborted m) ∧
    RestoredBut a.planned s.colors (render c ⟨.epoch, 0⟩ r s).sink.colors ∧
    (render c ⟨.epoch, 0⟩ r s).sink.colors = ⟨.cyan, .darkRed⟩ := by
  intro c r s a
  have one : (Trace.record c ⟨.epoch, 0⟩ r s).attempts.filter Attempt.failed = [a] := rfl
  have io : ∀ m, a.outcome ≠ .aborted m := by
    intro m hm
    cases hm
  obtain ⟨hrestored, hcolors, _⟩ := restoredBut_iff_of_single_failure c ⟨.epoch, 0⟩ r s one io
  exact ⟨one, io, hrestored.mpr (by simp [a]), hcolors⟩

/-- One failing call is not enough of a promise: after a foreground that cannot be restored, the
background stays that of the severity. -/
theorem background_leaks_after_failed_foreground :
    ¬ ∀ (c : Settings) (clock : Time.Clock) (r : RecordView) (s : Script) (a : Attempt Script),
      (Trace.record c clock r s).attempts.filter Attempt.failed = [a] →
      (∀ m, a.outcome ≠ .aborted m) →
      RestoredBut a.planned s.colors (render c clock r s).sink.colors := by
  intro h
  let c : Settings := ⟨none, true, .standard⟩
  let r : RecordView := ⟨.level .critical, "C", 1, some "m", none, none, none⟩
  let s : Script := .new ⟨.default, .default⟩ [(3, .failure "boom")] none
  let a : Attempt Script :=
    ⟨.priorForeground .default, r, (Sink.performAll s
      [.foreground .white, .background .darkRed, .text "crit"]).2⟩
  have one : (Trace.record c ⟨.epoch, 0⟩ r s).attempts.filter Attempt.failed = [a] := rfl
  have io : ∀ m, a.outcome ≠ .aborted m := by
    intro m hm
    cases hm
  have hcolors : (render c ⟨.epoch, 0⟩ r s).sink.colors = ⟨.white, .darkRed⟩ := by decide
  have hr := (h c ⟨.epoch, 0⟩ r s a one io).2
  rw [hcolors] at hr
  rcases hr with hr | ⟨p, hp⟩
  · cases hr
  · cases hp

end Render

end ConsoleLog
