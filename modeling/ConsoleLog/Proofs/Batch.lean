import ConsoleLog.Proofs.Trace
import ConsoleLog.Sink.Script

/-!
# Batches in parts

A batch in two parts is its first part and, if that succeeded, its second with the places counted
on. So a batch that fails has drawn every record before the failing one as a whole, once and in
order, and has made no call for the records after it.
-/

namespace ConsoleLog

def ExportError.later (n : Nat) (e : ExportError) : ExportError := { e with index := e.index + n }

namespace Trace

variable {σ ε δ : Type}

theorem idle_andThen (s : σ) (next : σ → Trace σ ε) : (silent (.idle s)).andThen next = next s := by
  rw [andThen_of_done rfl]
  rfl

theorem andThen_idle (t : Trace σ ε) : (t.andThen fun s => silent (.idle s)) = t := by
  by_cases ht : t.outcome = .done
  · rw [andThen_of_done ht]
    obtain ⟨⟨o, s, events⟩, as⟩ := t
    cases ht
    simp [silent, Run.idle]
  · exact andThen_of_ne_done ht _

theorem andThen_assoc (t : Trace σ ε) (f g : σ → Trace σ ε) :
    (t.andThen f).andThen g = t.andThen fun s => (f s).andThen g := by
  by_cases ht : t.outcome = .done
  · rw [andThen_of_done ht, andThen_of_done ht]
    by_cases hf : (f t.sink).outcome = .done
    · rw [andThen_of_done hf, andThen_of_done (by exact hf)]
      simp
    · rw [andThen_of_ne_done hf, andThen_of_ne_done (by exact hf)]
  · rw [andThen_of_ne_done ht, andThen_of_ne_done ht, andThen_of_ne_done ht]

theorem outcome_of_andThen_done {t : Trace σ ε} {next : σ → Trace σ ε}
    (h : (t.andThen next).outcome = .done) : t.outcome = .done := by
  by_cases ht : t.outcome = .done
  · exact ht
  · rw [andThen_of_ne_done ht] at h
    exact h

theorem mapError_andThen (f : ε → δ) (t : Trace σ ε) (next : σ → Trace σ ε) :
    (t.andThen next).mapError f = (t.mapError f).andThen fun s => (next s).mapError f := by
  have hmap : (t.mapError f).outcome = .done ↔ t.outcome = .done := Outcome.map_eq_done_iff f _
  by_cases ht : t.outcome = .done
  · rw [andThen_of_done ht, andThen_of_done (hmap.mpr ht)]
    rfl
  · rw [andThen_of_ne_done ht, andThen_of_ne_done (fun h => ht (hmap.mp h))]

section
variable [Sink σ] (c : Settings)

theorem batch_later (clock : Nat → Time.Clock) (n i : Nat) (s : σ) (rs : List RecordView) :
    batch c clock (i + n) s rs =
      (batch c (fun j => clock (j + n)) i s rs).mapError (.later n) := by
  induction rs generalizing i s with
  | nil => rfl
  | cons r rs ih =>
    have hnext : ∀ s : σ, batch c clock (i + n + 1) s rs =
        (batch c (fun j => clock (j + n)) (i + 1) s rs).mapError (.later n) := by
      intro s
      rw [← ih, Nat.add_right_comm]
    have hfirst : ((record c (clock (i + n)) r s).mapError (ExportError.mk i)).mapError (.later n) =
        (record c (clock (i + n)) r s).mapError (ExportError.mk (i + n)) := by
      simp only [mapError, Run.mapError]
      cases (record c (clock (i + n)) r s).outcome <;> rfl
    rw [batch, batch, mapError_andThen, hfirst]
    simp only [hnext]

theorem batch_append (clock : Nat → Time.Clock) (i : Nat) (s : σ) (xs ys : List RecordView) :
    batch c clock i s (xs ++ ys) =
      (batch c clock i s xs).andThen fun s => batch c clock (i + xs.length) s ys := by
  induction xs generalizing i s with
  | nil => exact (idle_andThen s fun s => batch c clock i s ys).symm
  | cons r xs ih =>
    have hlength : i + 1 + xs.length = i + (r :: xs).length := by
      simp only [List.length_cons]
      omega
    rw [List.cons_append, batch, batch, andThen_assoc]
    simp only [ih, hlength]

theorem batch_snoc (clock : Nat → Time.Clock) (i : Nat) (s : σ) (rs : List RecordView)
    (r : RecordView) :
    batch c clock i s (rs ++ [r]) = (batch c clock i s rs).andThen fun s =>
      (record c (clock (i + rs.length)) r s).mapError (ExportError.mk (i + rs.length)) := by
  have hsingle : ∀ s : σ, batch c clock (i + rs.length) s [r] =
      (record c (clock (i + rs.length)) r s).mapError (ExportError.mk (i + rs.length)) :=
    fun s => andThen_idle _
  rw [batch_append]
  simp only [hsingle]

end

end Trace

/-! ## Records that are drawn as a whole -/

section
variable {σ : Type} [Sink σ]

/-- The calls are those of the record's plan for the colors that were there when the tag was begun,
and all are done. -/
def Draws (c : Settings) (clock : Time.Clock) (r : RecordView) (as : List (Attempt σ)) : Prop :=
  ∃ a ∈ as, a.planned = .foreground (Plan.tagColors c r).foreground ∧
    Plan.ofRecord? c clock r (Sink.colors a.before) = some (as.map (·.planned)) ∧
    ∀ b ∈ as, b.record = r ∧ b.outcome = .done

def DrawsAll (c : Settings) (clock : Nat → Time.Clock) :
    Nat → List RecordView → List (Attempt σ) → Prop
  | _, [], as => as = []
  | i, r :: rs, as =>
    ∃ own rest, as = own ++ rest ∧ Draws c (clock i) r own ∧ DrawsAll c clock (i + 1) rs rest

theorem planned_attemptAll_of_done {r : RecordView} {s s' : σ} {ps : List Planned}
    (h : Sink.performAll s (Plan.calls ps) = (.done, s')) :
    (attemptAll r s ps).map (·.planned) = ps := by
  induction ps generalizing s with
  | nil => rfl
  | cons p ps ih =>
    obtain ⟨s₁, hp, hps⟩ := Sink.performAll_cons_done h
    rw [attemptAll_cons_of_done r hp, List.map_cons, ih hps]

theorem attemptAll_of_done {r : RecordView} {s : σ} {ps : List Planned}
    (h : (Sink.performAll s (Plan.calls ps)).1 = .done) :
    (attemptAll r s ps).map (·.planned) = ps ∧
      ∀ a ∈ attemptAll r s ps, a.record = r ∧ a.outcome = .done := by
  have hall : Sink.performAll s (Plan.calls ps) = (.done, _) := Prod.ext h rfl
  refine ⟨planned_attemptAll_of_done hall, fun a ha => ?_⟩
  obtain ⟨_, _, _, hr, _⟩ := mem_attemptAll ha
  exact ⟨hr, outcome_of_performAll_done hall a ha⟩

namespace Trace

variable (c : Settings)

theorem timestamp_of_done {clock : Time.Clock} {r : RecordView} {s : σ}
    (h : (timestamp c clock r s).outcome = .done) :
    ∃ stamp, Plan.timestamp? c clock r = some stamp ∧
      (timestamp c clock r s).attempts.map (·.planned) = stamp ∧
      ∀ a ∈ (timestamp c clock r s).attempts, a.record = r ∧ a.outcome = .done := by
  simp only [timestamp] at h ⊢
  cases hp : Plan.timestamp? c clock r with
  | none =>
    obtain ⟨f, _, hout, _⟩ := Render.drawTimestamp_of_none hp s
    rw [hout] at h
    cases h
  | some stamp =>
    rw [(Render.drawTimestamp_of_some hp s).1, Outcome.map_eq_done_iff] at h
    exact ⟨stamp, rfl, attemptAll_of_done h⟩

theorem tag_attempts_of_done {r : RecordView} {s : σ} (h : (tag c r s).outcome = .done) :
    (tag c r s).attempts.map (·.planned) = Plan.colored c r ++ Plan.restoring (Sink.colors s) ∧
      (∀ a ∈ (tag c r s).attempts, a.record = r ∧ a.outcome = .done) ∧
      ⟨.foreground (Plan.tagColors c r).foreground, r, s⟩ ∈ (tag c r s).attempts := by
  cases hcolored : Sink.performAll s (Plan.calls (Plan.colored c r)) with
  | mk o s₁ =>
    rcases o.aborted_cases with ⟨m, rfl⟩ | ho
    · rw [tag_of_aborted c hcolored] at h
      cases h
    · obtain ⟨hattempts, _, hdone⟩ := tag_of_not_aborted c hcolored ho
      obtain ⟨rfl, hrestored⟩ := hdone.mp h
      obtain ⟨hplan, hall⟩ := attemptAll_of_done (r := r) (congrArg Prod.fst hcolored)
      obtain ⟨hplan', hall'⟩ := attemptAll_of_done (r := r) hrestored
      rw [hattempts, List.map_append, hplan, hplan']
      refine ⟨rfl, fun a ha => ?_, ?_⟩
      · rcases List.mem_append.mp ha with ha | ha
        · exact hall a ha
        · exact hall' a ha
      · exact List.mem_append_left _ List.mem_cons_self

theorem lines_of_done {r : RecordView} {s : σ} (h : (lines r s).outcome = .done) :
    (lines r s).attempts.map (·.planned) = Plan.lines r ∧
      ∀ a ∈ (lines r s).attempts, a.record = r ∧ a.outcome = .done := by
  have hdone : (Sink.performAll s (r.lines.map .line)).1 = .done :=
    (Outcome.map_eq_done_iff _ _).mp h
  rw [← Plan.calls_lines] at hdone
  exact attemptAll_of_done hdone

/-- The calls of a record that is done are its plan for the colors behind the timestamp. -/
theorem planned_record {clock : Time.Clock} {r : RecordView} {s : σ}
    (h : (record c clock r s).outcome = .done) :
    Plan.ofRecord? c clock r (Sink.colors (timestamp c clock r s).sink) =
        some ((record c clock r s).attempts.map (·.planned)) ∧
      (∀ a ∈ (record c clock r s).attempts, a.record = r ∧ a.outcome = .done) ∧
      ⟨.foreground (Plan.tagColors c r).foreground, r, (timestamp c clock r s).sink⟩ ∈
        (record c clock r s).attempts := by
  have hstamp := outcome_of_andThen_done h
  obtain ⟨stamp, hplan, hplanned, hall⟩ := timestamp_of_done c hstamp
  obtain ⟨hattempts, _, hout⟩ := record_of_timestamp_done c hstamp
  rw [hattempts]
  rw [hout] at h
  generalize (timestamp c clock r s).sink = s₁ at h ⊢
  have htag : (tag c r s₁).outcome = .done := outcome_of_andThen_done h
  obtain ⟨htagged, htagAll, hfirst⟩ := tag_attempts_of_done c htag
  rw [tagAndLines, andThen_of_done htag] at h ⊢
  obtain ⟨hlined, hlineAll⟩ := lines_of_done (show (lines r (tag c r s₁).sink).outcome = .done from h)
  refine ⟨?_, fun b hb => ?_, ?_⟩
  · simp [Plan.ofRecord?, hplan, hplanned, htagged, hlined]
  · rcases List.mem_append.mp hb with hb | hb
    · exact hall b hb
    · rcases List.mem_append.mp hb with hb | hb
      · exact htagAll b hb
      · exact hlineAll b hb
  · exact List.mem_append_right _ (List.mem_append_left _ hfirst)

theorem draws_record {clock : Time.Clock} {r : RecordView} {s : σ}
    (h : (record c clock r s).outcome = .done) :
    Draws c clock r (record c clock r s).attempts := by
  obtain ⟨hplan, hall, hfirst⟩ := planned_record c h
  exact ⟨_, hfirst, rfl, hplan, hall⟩

theorem drawsAll_batch {clock : Nat → Time.Clock} {i : Nat} {s : σ} {rs : List RecordView}
    (h : (batch c clock i s rs).outcome = .done) :
    DrawsAll c clock i rs (batch c clock i s rs).attempts := by
  induction rs generalizing i s with
  | nil => rfl
  | cons r rs ih =>
    rw [batch] at h ⊢
    have hr := outcome_of_andThen_done h
    rw [andThen_of_done hr] at h ⊢
    exact ⟨_, _, rfl, draws_record c ((Outcome.map_eq_done_iff _ _).mp hr), ih h⟩

/-- A batch that is not done is its records up to the first that is not. -/
theorem batch_of_ne_done {clock : Nat → Time.Clock} {i : Nat} {s : σ} {rs : List RecordView}
    (h : (batch c clock i s rs).outcome ≠ .done) :
    ∃ pre r post, rs = pre ++ r :: post ∧ (batch c clock i s pre).outcome = .done ∧
      (record c (clock (i + pre.length)) r (batch c clock i s pre).sink).outcome ≠ .done ∧
      batch c clock i s rs = batch c clock i s (pre ++ [r]) := by
  induction rs generalizing i s with
  | nil => exact absurd rfl h
  | cons r rs ih =>
    by_cases hr : ((record c (clock i) r s).mapError (ExportError.mk i)).outcome = .done
    · rw [batch, andThen_of_done hr] at h
      obtain ⟨pre, q, post, rfl, hpre, hq, hall⟩ := ih h
      have hcons : batch c clock i s (r :: pre) = _ := andThen_of_done hr _
      have hindex : i + (r :: pre).length = i + 1 + pre.length := by
        simp only [List.length_cons]
        omega
      refine ⟨r :: pre, q, post, rfl, ?_, ?_, ?_⟩
      · rw [hcons]
        exact hpre
      · rw [hcons, hindex]
        exact hq
      · rw [List.cons_append, batch, batch, andThen_of_done hr, andThen_of_done hr, hall]
    · refine ⟨[], r, rs, rfl, rfl, fun hdone => hr ((Outcome.map_eq_done_iff _ _).mpr hdone), ?_⟩
      rw [List.nil_append, batch, batch, andThen_of_ne_done hr, andThen_of_ne_done hr]

theorem batch_of_failed {clock : Nat → Time.Clock} {i : Nat} {s : σ} {rs : List RecordView}
    {e : ExportError} (h : (batch c clock i s rs).outcome = .failed e) :
    ∃ pre r post, rs = pre ++ r :: post ∧ i + pre.length = e.index ∧
      (batch c clock i s pre).outcome = .done ∧
      (record c (clock e.index) r (batch c clock i s pre).sink).outcome = .failed e.source ∧
      (batch c clock i s rs).sink =
        (record c (clock e.index) r (batch c clock i s pre).sink).sink ∧
      (batch c clock i s rs).attempts = (batch c clock i s pre).attempts ++
        (record c (clock e.index) r (batch c clock i s pre).sink).attempts := by
  obtain ⟨pre, r, post, rfl, hpre, _, hall⟩ := batch_of_ne_done c (by rw [h]; simp)
  rw [batch_snoc, andThen_of_done hpre] at hall
  rw [hall] at h ⊢
  obtain ⟨source, hsource, rfl⟩ := (Outcome.map_eq_failed_iff _ _ _).mp h
  exact ⟨pre, r, post, rfl, rfl, hpre, hsource, rfl, rfl⟩

end Trace

end

/-! ## Batches of an exporter -/

def Operation.views : Operation → List RecordView
  | .export rs => rs.map LogRecord.view
  | .exportBatch rs => rs
  | _ => []

def Reply.Succeeded : Reply → Prop
  | .exported o => o = .done
  | .batch o => o = .done
  | _ => True

namespace Exporter

variable {σ : Type} [Sink σ]

def attempts (clock : Nat → Time.Clock) (e : Exporter σ) (op : Operation) : List (Attempt σ) :=
  (Trace.batch e.settings clock 0 e.sink (e.rendered op)).attempts

theorem step_exportBatch (clock : Nat → Time.Clock) (e : Exporter σ) (rs : List RecordView) :
    e.step clock (.exportBatch rs) =
      ⟨.batch (Trace.batch e.settings clock 0 e.sink rs).outcome,
        ⟨e.settings, e.lock.release (Trace.batch e.settings clock 0 e.sink rs).sink
            (Trace.batch e.settings clock 0 e.sink rs).outcome.isAborted, e.isShutdown⟩,
        (Trace.batch e.settings clock 0 e.sink rs).events⟩ := by
  rw [step_eq]
  simp [rendered, Operation.replyFor, Operation.isShutdown, Operation.notes]

theorem attempts_exportBatch (clock : Nat → Time.Clock) (e : Exporter σ) (rs : List RecordView) :
    e.attempts clock (.exportBatch rs) = (Trace.batch e.settings clock 0 e.sink rs).attempts := rfl

/-- A batch in two parts is its first part and, if that succeeded, its second part on what the first
left, with the places of errors counted on. On success all records are drawn, and on failure all
before the first that fails, each as a whole, once and in order; no later record makes a call. -/
theorem exportBatch_fails_fast (clock : Nat → Time.Clock) (e : Exporter σ) :
    (∀ xs ys,
      let first := e.step clock (.exportBatch xs)
      let second := first.exporter.step (fun i => clock (i + xs.length)) (.exportBatch ys)
      let whole := e.step clock (.exportBatch (xs ++ ys))
      (first.reply = .batch .done →
        (∃ o, second.reply = .batch o ∧ whole.reply = .batch (o.map (.later xs.length))) ∧
        whole.exporter = second.exporter ∧
        whole.events = first.events ++ second.events ∧
        e.attempts clock (.exportBatch (xs ++ ys)) = e.attempts clock (.exportBatch xs) ++
          first.exporter.attempts (fun i => clock (i + xs.length)) (.exportBatch ys)) ∧
      (first.reply ≠ .batch .done →
        whole = first ∧
        e.attempts clock (.exportBatch (xs ++ ys)) = e.attempts clock (.exportBatch xs))) ∧
    (e.step clock (.exportBatch []) = ⟨.batch .done, e, []⟩ ∧
      e.attempts clock (.exportBatch []) = []) ∧
    (∀ rs, Follows e.sink (e.attempts clock (.exportBatch rs))
      (e.step clock (.exportBatch rs)).exporter.sink) ∧
    (∀ rs, (e.step clock (.exportBatch rs)).reply = .batch .done →
      DrawsAll e.settings clock 0 rs (e.attempts clock (.exportBatch rs))) ∧
    (∀ rs error, (e.step clock (.exportBatch rs)).reply = .batch (.failed error) →
      error.index < rs.length ∧
      ∃ pre r post, rs = pre ++ r :: post ∧ pre.length = error.index ∧
        let before := e.step clock (.exportBatch pre)
        let last := Trace.record e.settings (clock error.index) r before.exporter.sink
        before.reply = .batch .done ∧
        DrawsAll e.settings clock 0 pre (e.attempts clock (.exportBatch pre)) ∧
        Render.render e.settings (clock error.index) r before.exporter.sink = last.toRun ∧
        last.outcome = .failed error.source ∧
        (e.step clock (.exportBatch rs)).exporter.sink = last.sink ∧
        e.attempts clock (.exportBatch rs) =
          e.attempts clock (.exportBatch pre) ++ last.attempts) := by
  refine ⟨fun xs ys => ?_, ⟨rfl, rfl⟩, fun rs => ?_, fun rs hdone => ?_, fun rs error hfailed => ?_⟩
  · have happend := Trace.batch_append e.settings clock 0 e.sink xs ys
    simp only [step_exportBatch, attempts_exportBatch, ne_eq, Reply.batch.injEq, sink_mk,
      Lock.value_release] at *
    constructor
    · intro hfirst
      rw [Trace.andThen_of_done hfirst, Nat.zero_add] at happend
      have hlater := fun s : σ => Trace.batch_later e.settings clock xs.length 0 s ys
      simp only [Nat.zero_add] at hlater
      rw [happend, hlater, hfirst, Lock.release_release]
      refine ⟨⟨_, rfl, rfl⟩, ?_, rfl, rfl⟩
      exact congrArg (Exporter.mk _ · _) (congrArg _ (Outcome.isAborted_map _ _))
    · intro hfirst
      rw [Trace.andThen_of_ne_done hfirst] at happend
      rw [happend]
      exact ⟨rfl, rfl⟩
  · rw [step_sink]
    exact Trace.follows_batch e.settings clock 0 e.sink rs
  · rw [step_exportBatch] at hdone
    exact Trace.drawsAll_batch e.settings (Reply.batch.inj hdone)
  · rw [step_exportBatch] at hfailed
    obtain ⟨pre, r, post, rfl, hindex, hpre, hr, hsink, hattempts⟩ :=
      Trace.batch_of_failed e.settings (Reply.batch.inj hfailed)
    rw [Nat.zero_add] at hindex
    simp only [step_exportBatch, sink_mk, Lock.value_release]
    refine ⟨?_, pre, r, post, rfl, hindex, ?_⟩
    · simp only [List.length_append, List.length_cons]
      omega
    · exact ⟨congrArg Reply.batch hpre, Trace.drawsAll_batch e.settings hpre,
        (Trace.toRun_record _ _ _ _).symm, hr, hsink, hattempts⟩

/-- The second of three records cannot write its header, after a shutdown. -/
theorem exportBatch_fails_fast_at_second_record :
    let r : RecordView := ⟨.level .warning, "App", 7, some "m", none, some "a\nb", none⟩
    let e : Exporter Script :=
      ⟨⟨none, true, .standard⟩, .new (.new ⟨.magenta, .darkBlue⟩ [(14, .failure "closed")] none), true⟩
    let clock : Nat → Time.Clock := fun _ => ⟨.epoch, 0⟩
    let first := e.step clock (.exportBatch [r])
    let whole := e.step clock (.exportBatch [r, r, r])
    first.reply = .batch .done ∧
    whole.reply = .batch (.failed ⟨1, .sink "closed"⟩) ∧
    whole.exporter = (first.exporter.step clock (.exportBatch [r, r])).exporter ∧
    DrawsAll e.settings clock 0 [r] (e.attempts clock (.exportBatch [r])) := by
  intro r e clock first whole
  obtain ⟨hparts, _, _, hdone, _⟩ := exportBatch_fails_fast clock e
  have hfirst : first.reply = .batch .done := by decide
  have hwhole : whole.reply = .batch (.failed ⟨1, .sink "closed"⟩) := by decide
  exact ⟨hfirst, hwhole, ((hparts [r] [r, r]).1 hfirst).2.1, hdone [r] hfirst⟩

end Exporter

end ConsoleLog
