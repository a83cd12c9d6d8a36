import ConsoleLog.Proofs.Batch
import ConsoleLog.Proofs.Session
import Mathlib.Data.List.Forall2

/-!
# The life of an exporter

All that an operation finds of the ones before it is the sink as they left it and whether there was a
shutdown among them. A call that aborts is the last of its operation and poisons the lock for good, but
what it left is what the next operation starts from, since no operation depends on the poison
(`Alike.step`).
-/

namespace ConsoleLog

theorem Outcome.isAborted_iff {ε : Type} {o : Outcome ε} :
    o.isAborted = true ↔ ∃ m, o = .aborted m := by
  cases o <;> simp [Outcome.isAborted]

theorem Outcome.map_eq_aborted_iff {ε δ : Type} (f : ε → δ) (o : Outcome ε) (m : String) :
    o.map f = .aborted m ↔ o = .aborted m := by
  cases o <;> simp [Outcome.map]

section
variable {σ ε δ : Type} [Sink σ]

def Attempt.Aborts (a : Attempt σ) (m : String) : Prop := a.outcome = .aborted m

namespace Trace

structure Calm (t : Trace σ ε) : Prop where
  outcome : ∀ m, t.outcome ≠ .aborted m
  attempts : ∀ a ∈ t.attempts, ∀ m, ¬ a.Aborts m

/-- The call is the last that is made, and its abort ends the trace. -/
structure AbortedBy (t : Trace σ ε) (a : Attempt σ) (m : String) : Prop where
  attempts : ∃ pre, t.attempts = pre ++ [a] ∧ ∀ b ∈ pre, ∀ m, ¬ b.Aborts m
  aborts : a.Aborts m
  outcome : t.outcome = .aborted m
  sink : t.sink = a.after

def Contained (t : Trace σ ε) : Prop := t.Calm ∨ ∃ a m, t.AbortedBy a m

theorem Contained.prepend {t : Trace σ ε} {t' : Trace σ δ} {as : List (Attempt σ)}
    (h : t.Contained) (has : ∀ a ∈ as, ∀ m, ¬ a.Aborts m)
    (hattempts : t'.attempts = as ++ t.attempts) (hsink : t'.sink = t.sink)
    (hout : ∀ m, t'.outcome = .aborted m ↔ t.outcome = .aborted m) : t'.Contained := by
  rcases h with h | ⟨a, m, ⟨pre, ht, hpre⟩, ha, hm, hs⟩
  · refine Or.inl ⟨fun m hm => h.outcome m ((hout m).mp hm), fun a ha => ?_⟩
    rw [hattempts] at ha
    rcases List.mem_append.mp ha with ha | ha
    · exact has a ha
    · exact h.attempts a ha
  · refine Or.inr ⟨a, m, ⟨as ++ pre, ?_, fun b hb => ?_⟩, ha, (hout m).mpr hm, hsink.trans hs⟩
    · rw [hattempts, ht, List.append_assoc]
    · rcases List.mem_append.mp hb with hb | hb
      · exact has b hb
      · exact hpre b hb

theorem Contained.congr {t : Trace σ ε} {t' : Trace σ δ} (h : t.Contained)
    (hattempts : t'.attempts = t.attempts) (hsink : t'.sink = t.sink)
    (hout : ∀ m, t'.outcome = .aborted m ↔ t.outcome = .aborted m) : t'.Contained :=
  h.prepend (List.forall_mem_nil _) hattempts hsink hout

theorem Contained.mapError {t : Trace σ ε} (h : t.Contained) (f : ε → δ) :
    (t.mapError f).Contained :=
  h.congr rfl rfl (Outcome.map_eq_aborted_iff f _)

theorem Contained.calm_of_done {t : Trace σ ε} (h : t.Contained) (ht : t.outcome = .done) :
    t.Calm := by
  rcases h with h | ⟨a, m, h⟩
  · exact h
  · have := h.outcome.symm.trans ht
    cases this

theorem Contained.andThen {t : Trace σ ε} {next : σ → Trace σ ε} (h : t.Contained)
    (hn : ∀ s, (next s).Contained) : (t.andThen next).Contained := by
  by_cases ht : t.outcome = .done
  · rw [andThen_of_done ht]
    exact (hn t.sink).prepend (h.calm_of_done ht).attempts rfl rfl fun _ => Iff.rfl
  · rw [andThen_of_ne_done ht]
    exact h

theorem Contained.abortedBy {t : Trace σ ε} {pre post : List (Attempt σ)} {a : Attempt σ} {m : String}
    (h : t.Contained) (ht : t.attempts = pre ++ a :: post) (ha : a.Aborts m) :
    post = [] ∧ t.AbortedBy a m := by
  rcases h with h | ⟨b, n, h⟩
  · have hmem : a ∈ t.attempts := by
      rw [ht]
      simp
    exact absurd ha (h.attempts a hmem m)
  · obtain ⟨earlier, hearlier, hcalm⟩ := h.attempts
    rw [ht] at hearlier
    rcases List.eq_nil_or_concat post with rfl | ⟨later, d, rfl⟩
    · obtain ⟨_, hab⟩ := List.append_inj' hearlier rfl
      cases hab
      have hm : m = n := Outcome.aborted.inj (ha.symm.trans h.aborts)
      exact ⟨rfl, hm ▸ h⟩
    · -- no call that is not the last aborts
      rw [List.concat_eq_append, ← List.cons_append, ← List.append_assoc] at hearlier
      obtain ⟨hpre, _⟩ := List.append_inj' hearlier rfl
      exact absurd ha (hcalm a (by rw [← hpre]; simp) m)

theorem Contained.isAborted_iff {t : Trace σ ε} (h : t.Contained) :
    t.outcome.isAborted = true ↔ ∃ a ∈ t.attempts, ∃ m, a.Aborts m := by
  rw [Outcome.isAborted_iff]
  rcases h with h | ⟨a, m, h⟩
  · refine iff_of_false (fun ⟨m, hm⟩ => h.outcome m hm) ?_
    rintro ⟨a, ha, m, hm⟩
    exact h.attempts a ha m hm
  · obtain ⟨pre, hattempts, _⟩ := h.attempts
    refine iff_of_true ⟨m, h.outcome⟩ ⟨a, ?_, m, h.aborts⟩
    rw [hattempts]
    exact List.mem_append_right _ List.mem_cons_self

theorem contained_silent {r : Run σ ε} (h : r.outcome = .done) : (silent r).Contained := by
  refine Or.inl ⟨fun m hm => ?_, by simp [silent]⟩
  cases h.symm.trans hm

theorem contained_attemptAll (r : RecordView) (s : σ) (ps : List Planned) :
    (⟨⟨(Sink.performAll s (Plan.calls ps)).1, (Sink.performAll s (Plan.calls ps)).2, []⟩,
      attemptAll r s ps⟩ : Trace σ String).Contained := by
  rcases plan_cases s ps with ⟨s', h⟩ | ⟨pre, p, post, s', rfl, hpre, hp, hall⟩
  · have hdone := outcome_of_performAll_done (r := r) h
    refine Or.inl ⟨by simp [h], fun a ha m hm => ?_⟩
    cases (hdone a ha).symm.trans hm
  · have hdone := outcome_of_performAll_done (r := r) hpre
    have hbefore : ∀ a ∈ attemptAll r s pre, ∀ m, ¬ a.Aborts m := by
      intro a ha m hm
      cases (hdone a ha).symm.trans hm
    rw [hall, attemptAll_of_stop hpre hp]
    rcases (Sink.perform s' p.call).1.aborted_cases with ⟨m, hm⟩ | hm
    · exact Or.inr ⟨⟨p, r, s'⟩, m, ⟨_, rfl, hbefore⟩, hm, hm, rfl⟩
    · refine Or.inl ⟨hm, fun a ha => ?_⟩
      rcases List.mem_append.mp ha with ha | ha
      · exact hbefore a ha
      · rw [List.mem_singleton.mp ha]
        exact hm

/-! ## Records and batches -/

variable (c : Settings)

theorem contained_timestamp (clock : Time.Clock) (r : RecordView) (s : σ) :
    (timestamp c clock r s).Contained := by
  cases h : Plan.timestamp? c clock r with
  | some stamp =>
    obtain ⟨hout, hsink⟩ := Render.drawTimestamp_of_some h s
    apply (contained_attemptAll r s stamp).congr
    · simp [timestamp, h]
    · exact hsink
    · rw [show (timestamp c clock r s).outcome = _ from hout]
      exact Outcome.map_eq_aborted_iff _ _
  | none =>
    obtain ⟨f, _, hout, _⟩ := Render.drawTimestamp_of_none h s
    refine Or.inl ⟨fun m hm => ?_, by simp [timestamp, h]⟩
    cases hout.symm.trans hm

theorem contained_tag (r : RecordView) (s : σ) : (tag c r s).Contained := by
  have hcolored := contained_attemptAll r s (Plan.colored c r)
  cases h : Sink.performAll s (Plan.calls (Plan.colored c r)) with
  | mk o s₁ =>
    rw [h] at hcolored
    rcases o.aborted_cases with ⟨m, rfl⟩ | ho
    · rw [tag_of_aborted c h]
      exact hcolored.congr rfl rfl fun _ => by simp
    · -- the colors from before are set again
      obtain ⟨hattempts, hsink, _⟩ := tag_of_not_aborted c h ho
      have hcalm : ∀ a ∈ attemptAll r s (Plan.colored c r), ∀ m, ¬ a.Aborts m := by
        rcases hcolored with hcalm | ⟨a, m, hm⟩
        · exact hcalm.attempts
        · exact absurd hm.outcome (ho m)
      exact (contained_attemptAll r s₁ (Plan.restoring (Sink.colors s))).prepend hcalm hattempts
        hsink (tag_aborted_iff c h ho)

theorem contained_lines (r : RecordView) (s : σ) : (lines r s).Contained := by
  apply (contained_attemptAll r s (Plan.lines r)).congr
  · rfl
  · rw [Plan.calls_lines]
    rfl
  · rw [Plan.calls_lines]
    exact Outcome.map_eq_aborted_iff _ _

theorem contained_record (clock : Time.Clock) (r : RecordView) (s : σ) :
    (record c clock r s).Contained := by
  refine (contained_timestamp c clock r s).andThen fun s => ?_
  refine (contained_silent rfl).andThen fun s => ?_
  exact (contained_tag c r s).andThen fun s => contained_lines r s

theorem contained_batch (clock : Nat → Time.Clock) (i : Nat) (s : σ) (rs : List RecordView) :
    (batch c clock i s rs).Contained := by
  induction rs generalizing i s with
  | nil => exact contained_silent rfl
  | cons r rs ih =>
    rw [batch]
    exact ((contained_record c (clock i) r s).mapError _).andThen fun s => ih (i + 1) s

theorem record_of_mem_attemptAll {r : RecordView} {s : σ} {ps : List Planned} {a : Attempt σ}
    (h : a ∈ attemptAll r s ps) : a.record = r := by
  obtain ⟨_, _, _, hr, _⟩ := mem_attemptAll h
  exact hr

theorem record_of_mem_attempts {clock : Time.Clock} {r : RecordView} {s : σ} {a : Attempt σ}
    (h : a ∈ (record c clock r s).attempts) : a.record = r := by
  rcases mem_attempts_andThen h with h | h
  · simp only [timestamp] at h
    split at h
    · exact record_of_mem_attemptAll h
    · cases h
  rcases mem_attempts_andThen h with h | h
  · cases h
  rcases mem_attempts_andThen h with h | h
  · rcases List.mem_append.mp h with h | h
    · exact record_of_mem_attemptAll h
    · split at h
      · cases h
      · exact record_of_mem_attemptAll h
  · exact record_of_mem_attemptAll h

theorem mem_events_record {clock : Time.Clock} {r : RecordView} {s : σ} {x : Event}
    (h : x ∈ (record c clock r s).events) :
    (∃ i, x = .timestampOutOfRange i) ∨ ∃ severity, x = .unknownSeverity severity := by
  rcases mem_events_andThen h with h | h
  · have hmoment : ∀ zone i, x ∈ (Render.moment zone clock i).2 → x = .timestampOutOfRange i := by
      intro zone i hx
      unfold Render.moment at hx
      split at hx
      · cases hx
      · exact List.mem_singleton.mp hx
    left
    simp only [timestamp, Render.drawTimestamp] at h
    split at h
    · cases h
    · split at h
      · exact ⟨_, hmoment _ _ h⟩
      · rcases List.mem_append.mp h with h | h
        · exact ⟨_, hmoment _ _ h⟩
        · cases h
  rcases mem_events_andThen h with h | h
  · right
    simp only [silent, Run.raise, Render.severityEvents] at h
    split at h
    · exact ⟨_, List.mem_singleton.mp h⟩
    · cases h
  rcases mem_events_andThen h with h | h
  · cases h
  · cases h

theorem exportFailed_not_mem_batch (clock : Nat → Time.Clock) (i : Nat) (s : σ)
    (rs : List RecordView) (text : String) : .exportFailed text ∉ (batch c clock i s rs).events := by
  induction rs generalizing i s with
  | nil => simp [batch, silent, Run.idle]
  | cons r rs ih =>
    intro h
    rcases mem_events_andThen h with h | h
    · rcases mem_events_record c h with ⟨_, hx⟩ | ⟨_, hx⟩
      · cases hx
      · cases hx
    · exact ih (i + 1) _ h

/-- The record of the aborting call is the last that is drawn: the records before it succeed, and
those after it make no difference. -/
theorem batch_of_abortedBy {clock : Nat → Time.Clock} {i : Nat} {s : σ} {rs : List RecordView}
    {a : Attempt σ} {m : String} (h : (batch c clock i s rs).AbortedBy a m) :
    ∃ n, rs[n]? = some a.record ∧ (batch c clock i s (rs.take n)).outcome = .done ∧
      batch c clock i s (rs.take (n + 1)) = batch c clock i s rs := by
  obtain ⟨pre, r, post, rfl, hpre, hr, hall⟩ := batch_of_ne_done c (by rw [h.outcome]; simp)
  have htake : (pre ++ r :: post).take pre.length = pre := List.take_left
  have htake' : (pre ++ r :: post).take (pre.length + 1) = pre ++ [r] := by
    rw [List.take_length_add_append]
    rfl
  refine ⟨pre.length, ?_, ?_, ?_⟩
  · obtain ⟨made, hmade, _⟩ := h.attempts
    have hmem : a ∈ (batch c clock i s (pre ++ r :: post)).attempts := by
      rw [hmade]
      exact List.mem_append_right _ List.mem_cons_self
    rw [hall, batch_snoc] at hmem
    rcases mem_attempts_andThen hmem with hmem | hmem
    · have hcalm := (contained_batch c clock i s pre).calm_of_done hpre
      exact absurd h.aborts (hcalm.attempts a hmem m)
    · rw [record_of_mem_attempts c hmem]
      rw [List.getElem?_append_right (Nat.le_refl _), Nat.sub_self]
      rfl
  · rw [htake]
    exact hpre
  · rw [htake', hall]

end Trace

end

/-! ## Operations -/

def Operation.take (n : Nat) : Operation → Operation
  | .export rs => .export (rs.take n)
  | .exportBatch rs => .exportBatch (rs.take n)
  | op => op

def Reply.Aborted (m : String) : Reply → Prop
  | .exported o => o = .aborted m
  | .batch o => o = .aborted m
  | _ => False

namespace Exporter

section
variable {σ : Type}

theorem rendered_take (e : Exporter σ) (op : Operation) (n : Nat) :
    e.rendered (op.take n) = (e.rendered op).take n := by
  cases op with
  | «export» rs =>
    simp only [Operation.take, rendered]
    split
    · exact List.take_nil.symm
    · exact List.map_take
  | exportBatch rs => rfl
  | shutdown => exact List.take_nil.symm
  | describe => exact List.take_nil.symm

theorem rendered_cases {e : Exporter σ} {op : Operation} (h : e.rendered op ≠ []) :
    (∃ rs, op = .export rs ∧ e.isShutdown = false) ∨ ∃ rs, op = .exportBatch rs := by
  cases op with
  | «export» rs =>
    cases hflag : e.isShutdown with
    | true => exact absurd (by rw [rendered, if_pos hflag]) h
    | false => exact Or.inl ⟨rs, rfl, rfl⟩
  | exportBatch rs => exact Or.inr ⟨rs, rfl⟩
  | shutdown => exact absurd rfl h
  | describe => exact absurd rfl h

theorem rendered_eq_views {e : Exporter σ} {op : Operation} (h : e.rendered op ≠ []) :
    e.rendered op = op.views := by
  rcases rendered_cases h with ⟨rs, rfl, hlive⟩ | ⟨rs, rfl⟩
  · rw [rendered, hlive]
    rfl
  · rfl

theorem replyFor_of_rendered {e : Exporter σ} {op : Operation} (h : e.rendered op ≠ [])
    (o : Outcome ExportError) :
    ((op.replyFor e o).Succeeded ↔ o = .done) ∧
      ∀ m, (op.replyFor e o).Aborted m ↔ o = .aborted m := by
  rcases rendered_cases h with ⟨rs, rfl, hlive⟩ | ⟨rs, rfl⟩
  · rw [Operation.replyFor, hlive]
    exact ⟨Outcome.map_eq_done_iff _ o, Outcome.map_eq_aborted_iff _ o⟩
  · exact ⟨Iff.rfl, fun _ => Iff.rfl⟩

theorem isShutdown_of_rendered {e : Exporter σ} {op : Operation} (h : e.rendered op ≠ []) :
    op.isShutdown = false := by
  rcases rendered_cases h with ⟨rs, rfl, _⟩ | ⟨rs, rfl⟩ <;> rfl

end

variable {σ : Type} [Sink σ]

/-- What an operation comes to when the call `a` aborts it: nothing that it would do after that call
is done, and the records behind the one that it was drawing make no difference. -/
structure AbortedBy (clock : Nat → Time.Clock) (e : Exporter σ) (op : Operation) (a : Attempt σ)
    (m : String) : Prop where
  reply : (e.step clock op).reply.Aborted m
  exporter : (e.step clock op).exporter = { e with lock := ⟨a.after, true⟩ }
  events : ∀ text, .exportFailed text ∉ (e.step clock op).events
  records : ∃ n, op.views[n]? = some a.record ∧ (e.step clock (op.take n)).reply.Succeeded ∧
    e.step clock (op.take (n + 1)) = e.step clock op ∧
    e.attempts clock (op.take (n + 1)) = e.attempts clock op

theorem step_take {clock : Nat → Time.Clock} {e : Exporter σ} {op : Operation} {n : Nat}
    (h : Trace.batch e.settings clock 0 e.sink ((e.rendered op).take n) =
      Trace.batch e.settings clock 0 e.sink (e.rendered op)) :
    e.step clock (op.take n) = e.step clock op ∧
      e.attempts clock (op.take n) = e.attempts clock op := by
  rw [← rendered_take] at h
  constructor
  · rw [step_eq, step_eq, h]
    cases op <;> rfl
  · exact congrArg Trace.attempts h

theorem abortedBy_of_attempts {clock : Nat → Time.Clock} {e : Exporter σ} {op : Operation}
    {pre post : List (Attempt σ)} {a : Attempt σ} {m : String}
    (h : e.attempts clock op = pre ++ a :: post) (ha : a.Aborts m) :
    post = [] ∧ e.AbortedBy clock op a m := by
  obtain ⟨hpost, habort⟩ :=
    (Trace.contained_batch e.settings clock 0 e.sink (e.rendered op)).abortedBy h ha
  obtain ⟨n, hn, hdone, hall⟩ := Trace.batch_of_abortedBy e.settings habort
  obtain ⟨hstep, hattempts⟩ := step_take hall
  have hrendered : e.rendered op ≠ [] := by
    intro hnil
    rw [hnil] at hn
    cases hn
  refine ⟨hpost, ?_, ?_, fun text => ?_, n, ?_, ?_, hstep, hattempts⟩
  · rw [step_eq]
    exact ((replyFor_of_rendered hrendered _).2 m).mpr habort.outcome
  · rw [step_eq, habort.sink, habort.outcome, isShutdown_of_rendered hrendered, Bool.or_false,
      Lock.release, Outcome.isAborted, Bool.or_true]
  · have hnotes : op.notes (.aborted m) = [] := by
      cases op <;> rfl
    rw [step_eq, habort.outcome, hnotes, List.append_nil]
    exact Trace.exportFailed_not_mem_batch _ _ _ _ _ _
  · rw [← rendered_eq_views hrendered]
    exact hn
  · have htake : (op.take n).replyFor e .done = op.replyFor e .done := by
      cases op <;> rfl
    rw [step_eq, rendered_take, hdone, htake]
    exact (replyFor_of_rendered hrendered .done).1.mpr rfl

end Exporter

/-! ## Poisoned locks -/

/-- The exporters differ in the poison of their locks at most. -/
structure Exporter.Alike {σ : Type} (e e' : Exporter σ) : Prop where
  settings : e.settings = e'.settings
  sink : e.sink = e'.sink
  isShutdown : e.isShutdown = e'.isShutdown

structure Step.Alike {σ : Type} (st st' : Step σ) : Prop where
  reply : st.reply = st'.reply
  events : st.events = st'.events
  exporter : st.exporter.Alike st'.exporter

namespace Exporter

section
variable {σ : Type} {e e' : Exporter σ}

theorem Alike.rendered (h : e.Alike e') (op : Operation) : e.rendered op = e'.rendered op := by
  unfold Exporter.rendered
  rw [h.isShutdown]

theorem Alike.replyFor (h : e.Alike e') (op : Operation) (o : Outcome ExportError) :
    op.replyFor e o = op.replyFor e' o := by
  unfold Operation.replyFor describe
  rw [h.isShutdown, h.settings]

variable [Sink σ]

theorem Alike.attempts (h : e.Alike e') (clock : Nat → Time.Clock) (op : Operation) :
    e.attempts clock op = e'.attempts clock op := by
  rw [Exporter.attempts, Exporter.attempts, h.rendered, h.settings, h.sink]

/-- A poisoned lock changes nothing for an operation. -/
theorem Alike.step (h : e.Alike e') (clock : Nat → Time.Clock) (op : Operation) :
    (e.step clock op).Alike (e'.step clock op) := by
  rw [step_eq, step_eq, h.rendered, h.replyFor, h.settings, h.sink, h.isShutdown]
  refine ⟨rfl, rfl, rfl, ?_, rfl⟩
  simp only [sink_mk, Lock.value_release]

theorem Alike.session (h : e.Alike e') (clock : Nat → Nat → Time.Clock) (ops : List Operation) :
    List.Forall₂ Step.Alike (e.session clock ops) (e'.session clock ops) := by
  induction ops generalizing clock e e' with
  | nil => exact .nil
  | cons op ops ih =>
    have hstep := h.step (clock 0) op
    exact .cons hstep (ih hstep.exporter fun n => clock (n + 1))

theorem Alike.history (h : e.Alike e') (clock : Nat → Nat → Time.Clock) (ops : List Operation) :
    e.history clock ops = e'.history clock ops := by
  induction ops generalizing clock e e' with
  | nil => rfl
  | cons op ops ih =>
    rw [Exporter.history, Exporter.history, ih (h.step (clock 0) op).exporter]
    exact congrArg (· ++ _) (h.attempts (clock 0) op)

end

variable {σ : Type} [Sink σ]

/-- After an operation the lock is poisoned if it was before or a call of the operation aborted. -/
theorem poisoned_step (clock : Nat → Time.Clock) (e : Exporter σ) (op : Operation) :
    (e.step clock op).exporter.lock.poisoned = true ↔
      e.lock.poisoned = true ∨ ∃ a ∈ e.attempts clock op, ∃ m, a.Aborts m := by
  have hcontained := Trace.contained_batch e.settings clock 0 e.sink (e.rendered op)
  rw [step_eq, Lock.release, Bool.or_eq_true, hcontained.isAborted_iff]
  rfl

theorem poisoned_after (clock : Nat → Nat → Time.Clock) (e : Exporter σ) (ops : List Operation) :
    (e.after clock ops).lock.poisoned = true ↔
      e.lock.poisoned = true ∨ ∃ a ∈ e.history clock ops, ∃ m, a.Aborts m := by
  induction ops generalizing clock e with
  | nil => simp [after, history]
  | cons op ops ih =>
    have hhistory : e.history clock (op :: ops) = e.attempts (clock 0) op ++
        (e.step (clock 0) op).exporter.history (fun n => clock (n + 1)) ops := rfl
    rw [after, ih, poisoned_step, hhistory]
    simp only [List.mem_append, or_and_right, exists_or, or_assoc]

theorem alike_anew (clock : Nat → Nat → Time.Clock) (e : Exporter σ) (ops : List Operation) :
    (e.after clock ops).Alike
      ⟨e.settings, .new (e.after clock ops).sink, e.isShutdown || ops.any Operation.isShutdown⟩ where
  settings := settings_after clock e ops
  sink := rfl
  isShutdown := isShutdown_after_eq clock e ops

/-- The lock of a session is poisoned from the first call on that aborts. An operation does all the same
what it would do on a new exporter, whose lock is not, with the same settings, the sink as the operations
before left it and the flag of a shutdown among them, and so does the rest of the session. After a
shutdown the pipeline's batches make no call and raise no event, views are drawn as before, and the
description differs in the flag alone. If a call aborts, it is the last of its operation. -/
theorem session_lifecycle (clock : Nat → Nat → Time.Clock) (e : Exporter σ)
    (before after : List Operation) (op : Operation) :
    let prior := e.after clock before
    let flag := e.isShutdown || before.any Operation.isShutdown
    let anew : Exporter σ := ⟨e.settings, .new prior.sink, flag⟩
    let later := fun n => clock (before.length + n)
    let st := anew.step (later 0) op
    let made := anew.attempts (later 0) op
    (Follows e.sink (e.history clock before) prior.sink ∧
      (prior.lock.poisoned = true ↔
        e.lock.poisoned = true ∨ ∃ a ∈ e.history clock before, ∃ m, a.outcome = .aborted m)) ∧
    ((∃ rest, e.session clock (before ++ op :: after) = e.session clock before ++ rest ∧
        List.Forall₂ Step.Alike rest (anew.session later (op :: after))) ∧
      e.history clock (before ++ op :: after) =
        e.history clock before ++ anew.history later (op :: after) ∧
      Follows anew.sink made st.exporter.sink) ∧
    (flag = true → ∀ rs, op = .export rs →
      st = ⟨.exported (.failed .alreadyShutdown), anew, []⟩ ∧ made = []) ∧
    (∀ rs, op = .exportBatch rs → ∀ poisoned b,
      let other : Exporter σ := ⟨e.settings, ⟨prior.sink, poisoned⟩, b⟩
      (other.step (later 0) op).reply = st.reply ∧ (other.step (later 0) op).events = st.events ∧
        (other.step (later 0) op).exporter.sink = st.exporter.sink ∧
        other.attempts (later 0) op = made) ∧
    (op = .describe →
      st = ⟨.description ("SimpleConsoleExporter \x7b config: " ++ e.settings.describe ++
        ", is_shutdown: " ++ Value.boolText flag ++ " \x7d"), anew, []⟩ ∧ made = []) ∧
    (∀ pre a post m, made = pre ++ a :: post → a.outcome = .aborted m →
      post = [] ∧ anew.AbortedBy (later 0) op a m) := by
  intro prior flag anew later st made
  have hanew : prior.Alike anew := alike_anew clock e before
  have hlater : (fun n => clock (n + before.length)) = later := by
    funext n
    exact congrArg clock (Nat.add_comm n before.length)
  refine ⟨⟨?_, poisoned_after clock e before⟩, ⟨⟨prior.session later (op :: after), ?_, ?_⟩, ?_, ?_⟩,
    ?_, ?_, ?_, fun pre a post m => abortedBy_of_attempts⟩
  · rw [show prior.sink = _ from sink_after clock e before]
    exact follows_history clock e before
  · rw [session_append, hlater]
  · exact hanew.session later (op :: after)
  · rw [history_append, hlater, hanew.history later (op :: after)]
  · rw [show st.exporter.sink = _ from step_sink (later 0) anew op]
    exact Trace.follows_batch _ _ _ _ _
  · rintro hflag rs rfl
    have hrendered : anew.rendered (.export rs) = [] := by
      rw [rendered, if_pos hflag]
    constructor
    · change anew.step (later 0) (.export rs) = _
      rw [step, if_pos hflag]
    · change anew.attempts (later 0) (.export rs) = []
      rw [attempts, hrendered]
      rfl
  · rintro rs rfl poisoned b other
    have hsink : other.sink = anew.sink := sink_mk _ _ _
    have hst : st = _ := step_exportBatch (later 0) anew rs
    rw [step_exportBatch, hst, attempts_exportBatch, hsink]
    simp only [sink_mk, Lock.value_release]
    exact ⟨rfl, rfl, rfl, rfl⟩
  · rintro rfl
    exact ⟨rfl, rfl⟩

/-- The foreground from before cannot be set again in the first batch, which aborts it. -/
theorem session_lifecycle_after_abort :
    let r : RecordView := ⟨.level .warning, "App", 7, some "m", none, none, none⟩
    let e : Exporter Script :=
      ⟨⟨none, true, .standard⟩, .new (.new ⟨.magenta, .darkBlue⟩ [(3, .abort "gone")] none), false⟩
    let clock : Nat → Nat → Time.Clock := fun _ _ => ⟨.epoch, 0⟩
    let ops : List Operation := [.shutdown, .exportBatch [r], .export []]
    let drawn := Plan.colored e.settings r
    let a : Attempt Script :=
      ⟨.priorForeground .magenta, r, (Sink.performAll e.sink (Plan.calls drawn)).2⟩
    e.attempts (clock 0) (.exportBatch [r, r]) = attemptAll r e.sink drawn ++ [a] ∧
    a.outcome = .aborted "gone" ∧ e.AbortedBy (clock 0) (.exportBatch [r, r]) a "gone" ∧
    (e.after clock [.exportBatch [r, r]]).lock.acquire = .error ⟨a.after⟩ ∧
    (e.session clock (.exportBatch [r, r] :: ops)).map (·.reply) =
      [.batch (.aborted "gone"), .shutdown, .batch .done, .exported (.failed .alreadyShutdown)] := by
  intro r e clock ops drawn a
  have hmade : e.attempts (clock 0) (.exportBatch [r, r]) = attemptAll r e.sink drawn ++ [a] := rfl
  have ha : a.outcome = .aborted "gone" := rfl
  obtain ⟨_, _, _, _, _, haborts⟩ := session_lifecycle clock e [] ops (.exportBatch [r, r])
  obtain ⟨_, habort⟩ := haborts _ a [] "gone" hmade ha
  have hpoisoned : (e.after clock [.exportBatch [r, r]]).lock = ⟨a.after, true⟩ :=
    congrArg Exporter.lock habort.exporter
  refine ⟨hmade, ha, habort, ?_, by decide⟩
  rw [hpoisoned]
  rfl

end Exporter

end ConsoleLog
