import ConsoleLog.Proofs.Script

/-!
# The journal of a record

A script decides by a call's number whether it fails, so what a plan leaves in the journal can be
read off the script: the calls before the first that fails, that call, and the restoring calls if
the colors of the severity had been begun.
-/

namespace ConsoleLog

namespace Script

/-- No call of the list fails when the first has number `n`. -/
def Clear (s : Script) : Nat → List Call → Prop
  | _, [] => True
  | n, c :: cs => s.faultAt? n c = none ∧ s.Clear (n + 1) cs

/-- The entries of a list of calls, up to and with the first that fails. -/
def attempted (s : Script) : Nat → List Call → List JournalEntry
  | _, [] => []
  | n, c :: cs =>
    match s.faultAt? n c with
    | none => ⟨c, true⟩ :: s.attempted (n + 1) cs
    | some _ => [⟨c, false⟩]

def accept (s : Script) (cs : List Call) : Script :=
  { s with
    colors := Call.recolorAll cs s.colors
    journal := s.journal ++ cs.map (⟨·, true⟩) }

theorem clear_append (s : Script) (n : Nat) (cs ds : List Call) :
    s.Clear n (cs ++ ds) ↔ s.Clear n cs ∧ s.Clear (n + cs.length) ds := by
  induction cs generalizing n with
  | nil => simp [Clear]
  | cons c cs ih =>
    have hn : n + 1 + cs.length = n + (c :: cs).length := by
      simp only [List.length_cons]
      omega
    rw [List.cons_append, Clear, Clear, ih, hn, and_assoc]

/-- What was accepted before has no say in what fails. -/
theorem clear_congr {s s' : Script} (h : ∀ n c, s'.faultAt? n c = s.faultAt? n c) (n : Nat)
    (cs : List Call) : s'.Clear n cs ↔ s.Clear n cs := by
  induction cs generalizing n with
  | nil => rfl
  | cons c cs ih => rw [Clear, Clear, h, ih]

theorem attempted_congr {s s' : Script} (h : ∀ n c, s'.faultAt? n c = s.faultAt? n c) (n : Nat)
    (cs : List Call) : s'.attempted n cs = s.attempted n cs := by
  induction cs generalizing n with
  | nil => rfl
  | cons c cs ih => rw [attempted, attempted, h, ih]

theorem clear_accept (s : Script) (cs : List Call) (n : Nat) (ds : List Call) :
    (s.accept cs).Clear n ds ↔ s.Clear n ds := by
  apply clear_congr
  intro n c
  rfl

theorem attempted_accept (s : Script) (cs : List Call) (n : Nat) (ds : List Call) :
    (s.accept cs).attempted n ds = s.attempted n ds := by
  apply attempted_congr
  intro n c
  rfl

theorem nextCall_accept (s : Script) (cs : List Call) :
    (s.accept cs).nextCall = s.nextCall + cs.length := by
  simp [accept, nextCall]

theorem accept_append (s : Script) (cs ds : List Call) :
    s.accept (cs ++ ds) = (s.accept cs).accept ds := by
  simp [accept, Call.recolorAll_append]

theorem performAll_of_clear {s : Script} {cs : List Call} (h : s.Clear s.nextCall cs) :
    Sink.performAll s cs = (.done, s.accept cs) := by
  induction cs generalizing s with
  | nil => simp [Sink.performAll, accept, Call.recolorAll]
  | cons c cs ih =>
    obtain ⟨hc, hcs⟩ := h
    have hp : Sink.perform s c = (.done, s.accept [c]) := perform_of_clear hc
    have hnext : (s.accept [c]).nextCall = s.nextCall + 1 := nextCall_accept s [c]
    rw [Sink.performAll_cons_of_done hp, ih, ← accept_append]
    · rfl
    · rw [hnext]
      exact (clear_accept _ _ _ _).mpr hcs

theorem journal_performAll (s : Script) (cs : List Call) :
    (Sink.performAll s cs).2.journal = s.journal ++ s.attempted s.nextCall cs := by
  induction cs generalizing s with
  | nil => simp [Sink.performAll, attempted]
  | cons c cs ih =>
    cases h : s.fault? c with
    | none =>
      have hp : Sink.perform s c = (.done, s.accept [c]) := perform_of_clear h
      have hnext : (s.accept [c]).nextCall = s.nextCall + 1 := nextCall_accept s [c]
      rw [fault?] at h
      rw [Sink.performAll_cons_of_done hp, ih, hnext, attempted_accept, attempted, h]
      simp [accept]
    | some f =>
      have hp : Sink.perform s c = _ := perform_of_fault h
      rw [fault?] at h
      rw [Sink.performAll_cons_of_ne_done, hp, attempted, h]
      · rfl
      · rw [hp]
        exact outcome_ne_done f

/-! ### Plans -/

/-- Every call of the plan is carried out. -/
def Passes (s : Script) (ps : List Planned) : Prop := s.Clear s.nextCall (Plan.calls ps)

def Stops (s : Script) (pre : List Planned) (p : Planned) (message : String) : Prop :=
  s.Passes pre ∧ s.faultAt? (s.nextCall + pre.length) p.call = some (.failure message)

def stopped (s : Script) (pre : List Planned) (p : Planned) : Script :=
  (s.accept (Plan.calls pre)).record p.call false

theorem nextCall_accept_calls (s : Script) (ps : List Planned) :
    (s.accept (Plan.calls ps)).nextCall = s.nextCall + ps.length := by
  rw [nextCall_accept, Plan.calls, List.length_map]

theorem passes_append (s : Script) (ps qs : List Planned) :
    s.Passes (ps ++ qs) ↔ s.Passes ps ∧ (s.accept (Plan.calls ps)).Passes qs := by
  unfold Passes
  rw [Plan.calls_append, clear_append, nextCall_accept, clear_accept]

theorem stops_append (s : Script) (ps pre : List Planned) (p : Planned) (m : String) :
    s.Stops (ps ++ pre) p m ↔ s.Passes ps ∧ (s.accept (Plan.calls ps)).Stops pre p m := by
  have hf : (s.accept (Plan.calls ps)).faultAt? (s.nextCall + ps.length + pre.length) p.call =
      s.faultAt? (s.nextCall + (ps ++ pre).length) p.call := by
    rw [List.length_append, Nat.add_assoc]
    rfl
  unfold Stops
  rw [passes_append, nextCall_accept_calls, hf, and_assoc]

/-- A plan passes, or one of its calls is the first to fail. -/
theorem passes_or_fault (s : Script) (ps : List Planned) :
    s.Passes ps ∨ ∃ pre p post, ps = pre ++ p :: post ∧ s.Passes pre ∧
      s.faultAt? (s.nextCall + pre.length) p.call ≠ none := by
  induction ps generalizing s with
  | nil => exact Or.inl trivial
  | cons q ps ih =>
    by_cases hq : s.faultAt? s.nextCall q.call = none
    · have hone : s.Passes [q] := ⟨hq, trivial⟩
      rcases ih (s.accept (Plan.calls [q])) with h | ⟨pre, p, post, rfl, hpre, hp⟩
      · exact Or.inl ((passes_append s [q] ps).mpr ⟨hone, h⟩)
      · refine Or.inr ⟨q :: pre, p, post, rfl, (passes_append s [q] pre).mpr ⟨hone, hpre⟩, ?_⟩
        have hn : s.nextCall + (q :: pre).length =
            (s.accept (Plan.calls [q])).nextCall + pre.length := by
          rw [nextCall_accept_calls]
          simp only [List.length_cons, List.length_nil]
          omega
        rw [hn]
        exact hp
    · exact Or.inr ⟨[], q, ps, rfl, trivial, hq⟩

theorem stopped_append (s : Script) (ps pre : List Planned) (p : Planned) :
    s.stopped (ps ++ pre) p = (s.accept (Plan.calls ps)).stopped pre p := by
  rw [stopped, Plan.calls_append, accept_append, stopped]

theorem nextCall_stopped (s : Script) (pre : List Planned) (p : Planned) :
    (s.stopped pre p).nextCall = s.nextCall + pre.length + 1 := by
  rw [← nextCall_accept_calls]
  simp [stopped, record, nextCall]

theorem attempted_stopped (s : Script) (pre : List Planned) (p : Planned) (n : Nat)
    (cs : List Call) : (s.stopped pre p).attempted n cs = s.attempted n cs := by
  apply attempted_congr
  intro n c
  rfl

theorem performAll_of_stops {s : Script} {pre : List Planned} {p : Planned} {m : String}
    (h : s.Stops pre p m) (post : List Planned) :
    Sink.performAll s (Plan.calls (pre ++ p :: post)) = (.failed m, s.stopped pre p) := by
  have hf : (s.accept (Plan.calls pre)).fault? p.call = some (.failure m) := by
    rw [fault?, nextCall_accept_calls]
    exact h.2
  have hp : Sink.perform (s.accept (Plan.calls pre)) p.call = (.failed m, s.stopped pre p) :=
    perform_of_fault hf
  rw [Plan.calls_append, Sink.performAll_append_of_done (performAll_of_clear h.1)]
  change Sink.performAll _ (p.call :: _) = _
  rw [Sink.performAll_cons_of_ne_done, hp]
  rw [hp]
  simp

end Script

/-! ## Tags -/

namespace Script

/-- The restoring calls that follow the failing one, if the colors had been begun. -/
def restoration (s : Script) (prior : ColorPair) (p : Planned) : List JournalEntry :=
  if p.isColored then s.attempted s.nextCall (Plan.calls (Plan.restoring prior)) else []

theorem restoration_of_isColored {p : Planned} (h : p.isColored = true) (s : Script)
    (prior : ColorPair) :
    s.restoration prior p = s.attempted s.nextCall (Plan.calls (Plan.restoring prior)) := by
  rw [restoration, if_pos h]

theorem restoration_of_not_isColored {p : Planned} (h : p.isColored = false) (s : Script)
    (prior : ColorPair) : s.restoration prior p = [] := by
  rw [restoration, h, if_neg (by simp)]

theorem performAll_ne_aborted {s : Script} (h : ∀ n m, (n, .abort m) ∉ s.faults) (cs : List Call)
    (m : String) : (Sink.performAll s cs).1 ≠ .aborted m := by
  induction cs generalizing s with
  | nil => simp [Sink.performAll]
  | cons c cs ih =>
    rcases Sink.perform_cases s c with ⟨s', hc⟩ | hc
    · have hs : s'.faults = s.faults := by
        rw [← perform_faults s c]
        exact congrArg (Script.faults ·.2) hc.symm
      rw [Sink.performAll_cons_of_done hc]
      exact ih (by rwa [hs])
    · rw [Sink.performAll_cons_of_ne_done hc]
      exact perform_ne_aborted h c m

end Script

namespace Render

section
variable {c : Settings} {r : RecordView} {s : Script} {pre post : List Planned} {p : Planned}
  {m : String}

theorem drawTag_of_passes (h : s.Passes (Plan.colored c r ++ Plan.restoring s.colors)) :
    drawTag r.shownSeverity (Plan.tagColors c r) s =
      (.done, s.accept (Plan.calls (Plan.colored c r ++ Plan.restoring s.colors))) := by
  obtain ⟨hcolored, hrestoring⟩ := (Script.passes_append _ _ _).mp h
  have hall : Sink.performAll _ (Plan.calls (Plan.restoring (Sink.colors s))) = _ :=
    Script.performAll_of_clear hrestoring
  rw [drawTag_of_not_aborted (Script.performAll_of_clear hcolored) (by simp), hall,
    Plan.calls_append, Script.accept_append]
  rfl

theorem drawTag_of_restoring_stops (hps : Plan.restoring s.colors = pre ++ p :: post)
    (h : s.Stops (Plan.colored c r ++ pre) p m) :
    drawTag r.shownSeverity (Plan.tagColors c r) s =
      (.failed m, s.stopped (Plan.colored c r ++ pre) p) := by
  obtain ⟨hcolored, hpre⟩ := (Script.stops_append _ _ _ _ _).mp h
  have hall := Script.performAll_of_stops hpre post
  rw [← hps] at hall
  change Sink.performAll _ (Plan.calls (Plan.restoring (Sink.colors s))) = _ at hall
  rw [drawTag_of_not_aborted (Script.performAll_of_clear hcolored) (by simp), hall,
    Script.stopped_append]
  rfl

/-- The first failure counts, whatever becomes of the restoring calls. -/
theorem drawTag_of_colored_stops (noAbort : ∀ n m, (n, .abort m) ∉ s.faults)
    (hps : Plan.colored c r = pre ++ p :: post) (h : s.Stops pre p m) :
    (drawTag r.shownSeverity (Plan.tagColors c r) s).1 = .failed m ∧
    (drawTag r.shownSeverity (Plan.tagColors c r) s).2.journal =
      (s.stopped pre p).journal ++ (s.stopped pre p).attempted (s.stopped pre p).nextCall
        (Plan.calls (Plan.restoring s.colors)) := by
  have hcolored := Script.performAll_of_stops h post
  rw [← hps] at hcolored
  have hrestored := Script.performAll_ne_aborted (s := s.stopped pre p) noAbort
    (Plan.calls (Plan.restoring (Sink.colors s)))
  rw [drawTag_of_not_aborted hcolored (by simp)]
  refine ⟨?_, Script.journal_performAll _ _⟩
  simp only [Outcome.first]

theorem tag_of_passes (h : s.Passes (Plan.colored c r ++ Plan.restoring s.colors)) :
    (Trace.tag c r s).outcome = .done ∧
    (Trace.tag c r s).sink =
      s.accept (Plan.calls (Plan.colored c r ++ Plan.restoring s.colors)) := by
  rw [Trace.tag, drawTag_of_passes h]
  exact ⟨rfl, rfl⟩

/-! ## Records -/

theorem tagAndLines_of_passes
    (h : s.Passes (Plan.colored c r ++ Plan.restoring s.colors ++ Plan.lines r)) :
    (Trace.tagAndLines c r s).outcome = .done ∧
    (Trace.tagAndLines c r s).sink =
      s.accept (Plan.calls (Plan.colored c r ++ Plan.restoring s.colors ++ Plan.lines r)) := by
  obtain ⟨htag, hlines⟩ := (Script.passes_append _ _ _).mp h
  have hall := Script.performAll_of_clear hlines
  rw [Plan.calls_lines] at hall
  obtain ⟨hdone, hsink⟩ := tag_of_passes htag
  rw [Trace.tagAndLines, Trace.andThen_of_done hdone, hsink, Trace.lines, hall,
    Plan.calls_append _ (Plan.lines r), Script.accept_append, Plan.calls_lines]
  exact ⟨rfl, rfl⟩

theorem tagAndLines_of_colored_stops (noAbort : ∀ n m, (n, .abort m) ∉ s.faults)
    (hps : Plan.colored c r = pre ++ p :: post) (h : s.Stops pre p m) :
    (Trace.tagAndLines c r s).outcome = .failed (.sink m) ∧
    (Trace.tagAndLines c r s).sink.journal =
      (s.stopped pre p).journal ++ (s.stopped pre p).restoration s.colors p := by
  obtain ⟨hout, hjournal⟩ := drawTag_of_colored_stops noAbort hps h
  have htag : (Trace.tag c r s).outcome = .failed (.sink m) := congrArg (Outcome.map _) hout
  have hp : p.isColored = true := Plan.isColored_of_mem (c := c) (r := r) (by simp [hps])
  rw [Trace.tagAndLines, Trace.andThen_of_ne_done (by simp [htag]), Script.restoration_of_isColored hp]
  exact ⟨htag, hjournal⟩

theorem tagAndLines_of_restoring_stops (hps : Plan.restoring s.colors = pre ++ p :: post)
    (h : s.Stops (Plan.colored c r ++ pre) p m) :
    (Trace.tagAndLines c r s).outcome = .failed (.sink m) ∧
    (Trace.tagAndLines c r s).sink =
      s.stopped (Plan.colored c r ++ pre) p := by
  have hdraw := drawTag_of_restoring_stops hps h
  have htag : (Trace.tag c r s).outcome = .failed (.sink m) := by
    rw [Trace.tag, hdraw]
    rfl
  rw [Trace.tagAndLines, Trace.andThen_of_ne_done (by simp [htag])]
  refine ⟨htag, ?_⟩
  rw [Trace.tag, hdraw]
  rfl

theorem tagAndLines_of_lines_stops (hps : Plan.lines r = pre ++ p :: post)
    (h : s.Stops (Plan.colored c r ++ Plan.restoring s.colors ++ pre) p m) :
    (Trace.tagAndLines c r s).outcome = .failed (.sink m) ∧
    (Trace.tagAndLines c r s).sink =
      s.stopped (Plan.colored c r ++ Plan.restoring s.colors ++ pre) p := by
  obtain ⟨htag, hstop⟩ := (Script.stops_append _ _ _ _ _).mp h
  have hall := Script.performAll_of_stops hstop post
  rw [← hps, Plan.calls_lines] at hall
  obtain ⟨hdone, hsink⟩ := tag_of_passes htag
  rw [Trace.tagAndLines, Trace.andThen_of_done hdone, hsink, Trace.lines, hall, Script.stopped_append]
  exact ⟨rfl, rfl⟩

theorem tagAndLines_of_stops (noAbort : ∀ n m, (n, .abort m) ∉ s.faults)
    (hps : Plan.colored c r ++ (Plan.restoring s.colors ++ Plan.lines r) = pre ++ p :: post)
    (h : s.Stops pre p m) :
    (Trace.tagAndLines c r s).outcome = .failed (.sink m) ∧
    (Trace.tagAndLines c r s).sink.journal =
      (s.stopped pre p).journal ++ (s.stopped pre p).restoration s.colors p := by
  rcases Plan.split_append hps with ⟨rest, hcolored⟩ | ⟨pre₁, rfl, hps₁⟩
  · exact tagAndLines_of_colored_stops noAbort hcolored h
  · rcases Plan.split_append hps₁ with ⟨rest, hrestoring⟩ | ⟨pre₂, rfl, hlines⟩
    · have hp := Plan.restores_of_mem (q := s.colors) (p := p) (by simp [hrestoring])
      obtain ⟨hout, hsink⟩ := tagAndLines_of_restoring_stops hrestoring h
      rw [hsink, Script.restoration_of_not_isColored (Planned.isColored_of_restores hp),
        List.append_nil]
      exact ⟨hout, rfl⟩
    · obtain ⟨text, rfl⟩ := Plan.eq_line_of_mem (r := r) (p := p) (by simp [hlines])
      rw [← List.append_assoc] at h ⊢
      obtain ⟨hout, hsink⟩ := tagAndLines_of_lines_stops hlines h
      rw [hsink, Script.restoration_of_not_isColored rfl, List.append_nil]
      exact ⟨hout, rfl⟩

variable {clock : Time.Clock} {stamp : List Planned}

theorem timestamp_of_passes (hstamp : Plan.timestamp? c clock r = some stamp) (h : s.Passes stamp) :
    (Trace.timestamp c clock r s).outcome = .done ∧
    (Trace.timestamp c clock r s).sink = s.accept (Plan.calls stamp) := by
  obtain ⟨hout, hsink⟩ := drawTimestamp_of_some hstamp s
  rw [Script.performAll_of_clear h] at hout hsink
  exact ⟨hout, hsink⟩

theorem timestamp_of_stops (hstamp : Plan.timestamp? c clock r = some (pre ++ p :: post))
    (h : s.Stops pre p m) :
    (Trace.timestamp c clock r s).outcome = .failed (.sink m) ∧
    (Trace.timestamp c clock r s).sink = s.stopped pre p := by
  obtain ⟨hout, hsink⟩ := drawTimestamp_of_some hstamp s
  rw [Script.performAll_of_stops h] at hout hsink
  exact ⟨hout, hsink⟩

theorem colors_accept_timestamp (hstamp : Plan.timestamp? c clock r = some stamp) (s : Script) :
    (s.accept (Plan.calls stamp)).colors = s.colors :=
  Call.recolorAll_of_written (Plan.written_timestamp hstamp) s.colors

theorem render_of_passes {plan : List Planned} (hplan : Plan.ofRecord? c clock r s.colors = some plan)
    (h : s.Passes plan) :
    (render c clock r s).outcome = .done ∧
    (render c clock r s).sink = s.accept (Plan.calls plan) := by
  obtain ⟨stamp, hstamp, rfl⟩ := Option.map_eq_some_iff.mp hplan
  rw [List.append_assoc, List.append_assoc, ← List.append_assoc (Plan.colored c r)] at h ⊢
  obtain ⟨hfirst, htail⟩ := (Script.passes_append _ _ _).mp h
  obtain ⟨hdone, hsink⟩ := timestamp_of_passes hstamp hfirst
  obtain ⟨_, hsink', hout'⟩ := Trace.record_of_timestamp_done c hdone
  rw [hsink] at hsink' hout'
  rw [← colors_accept_timestamp hstamp s] at htail
  obtain ⟨hout, hlast⟩ := tagAndLines_of_passes htail
  rw [colors_accept_timestamp hstamp s, ← Script.accept_append, ← Plan.calls_append] at hlast
  rw [← Trace.toRun_record]
  exact ⟨hout'.trans hout, hsink'.trans hlast⟩

theorem render_of_stops (noAbort : ∀ n m, (n, .abort m) ∉ s.faults)
    (hplan : Plan.ofRecord? c clock r s.colors = some (pre ++ p :: post)) (h : s.Stops pre p m) :
    (render c clock r s).outcome = .failed (.sink m) ∧
    (render c clock r s).sink.journal =
      (s.stopped pre p).journal ++ (s.stopped pre p).restoration s.colors p := by
  obtain ⟨stamp, hstamp, hps⟩ := Option.map_eq_some_iff.mp hplan
  rw [List.append_assoc, List.append_assoc] at hps
  rw [← Trace.toRun_record]
  rcases Plan.split_append hps with ⟨rest, rfl⟩ | ⟨pre', rfl, hps'⟩
  · obtain ⟨hout, hsink⟩ := timestamp_of_stops hstamp h
    obtain ⟨text, rfl⟩ := Plan.eq_timestamp_of_mem (p := p) hstamp (by simp)
    rw [Trace.record_of_timestamp_ne_done c (by simp [hout]), Script.restoration_of_not_isColored rfl,
      List.append_nil, hsink]
    exact ⟨hout, rfl⟩
  · obtain ⟨hfirst, hstop⟩ := (Script.stops_append _ _ _ _ _).mp h
    obtain ⟨hdone, hsink⟩ := timestamp_of_passes hstamp hfirst
    obtain ⟨_, hsink', hout'⟩ := Trace.record_of_timestamp_done c hdone
    rw [hsink] at hsink' hout'
    rw [← colors_accept_timestamp hstamp s] at hps'
    have noAbort' : ∀ n m, (n, .abort m) ∉ (s.accept (Plan.calls stamp)).faults := noAbort
    obtain ⟨hout, hlast⟩ := tagAndLines_of_stops noAbort' hps' hstop
    rw [colors_accept_timestamp hstamp s, ← Script.stopped_append] at hlast
    exact ⟨hout'.trans hout, (congrArg Script.journal hsink').trans hlast⟩

end

/-- A rendering makes no call if its timestamp has no text, the calls of its plan if none fails, and
else those up to the first failing one, whose failure it reports, and the restoring calls if that
one is of the severity. -/
theorem render_runs_plan (c : Settings) (clock : Time.Clock) (r : RecordView) (s : Script)
    (noAbort : ∀ n m, (n, .abort m) ∉ s.faults) :
    (∀ f, c.format = some f → Plan.timestampText? c clock r f = none →
      (render c clock r s).outcome = .failed (.timestamp f.text) ∧
      (render c clock r s).sink = s) ∧
    (∀ plan, Plan.ofRecord? c clock r s.colors = some plan → s.Passes plan →
      (render c clock r s).outcome = .done ∧
      (render c clock r s).sink.journal = s.journal ++ (Plan.calls plan).map (⟨·, true⟩)) ∧
    (∀ pre p post, Plan.ofRecord? c clock r s.colors = some (pre ++ p :: post) → s.Passes pre →
      s.faultAt? (s.nextCall + pre.length) p.call ≠ none →
      ∃ m, s.faultAt? (s.nextCall + pre.length) p.call = some (.failure m) ∧
        (render c clock r s).outcome = .failed (.sink m) ∧
        (render c clock r s).sink.journal =
          s.journal ++ (Plan.calls pre).map (⟨·, true⟩) ++ [⟨p.call, false⟩] ++
            if p.isColored then
              s.attempted (s.nextCall + pre.length + 1) (Plan.calls (Plan.restoring s.colors))
            else []) ∧
    (∀ plan, s.Passes plan ∨ ∃ pre p post, plan = pre ++ p :: post ∧ s.Passes pre ∧
      s.faultAt? (s.nextCall + pre.length) p.call ≠ none) := by
  refine ⟨?_, ?_, ?_, s.passes_or_fault⟩
  · intro f hf h
    have hstamp : Plan.timestamp? c clock r = none := by simp [Plan.timestamp?, hf, h]
    exact outcome_of_unformatted hstamp hf s
  · intro plan hplan h
    obtain ⟨hout, hsink⟩ := render_of_passes hplan h
    rw [hsink]
    exact ⟨hout, rfl⟩
  · intro pre p post hplan hpre hne
    cases hf : s.faultAt? (s.nextCall + pre.length) p.call with
    | none => exact absurd hf hne
    | some f =>
      cases f with
      | abort m => exact absurd hf (Script.faultAt?_ne_abort noAbort _ _ _)
      | failure m =>
        obtain ⟨hout, hjournal⟩ := render_of_stops noAbort hplan ⟨hpre, hf⟩
        refine ⟨m, rfl, hout, ?_⟩
        rw [hjournal, Script.restoration, Script.attempted_stopped, Script.nextCall_stopped]
        rfl

/-- The tag is poisoned and the foreground cannot be restored: the tag's failure is reported. -/
theorem render_runs_plan_poisoned :
    let c : Settings := ⟨none, true, .standard⟩
    let r : RecordView := ⟨.level .error, "App", 7, none, some "lost", none, none⟩
    let s : Script := .new ⟨.cyan, .darkBlue⟩ [(3, .failure "closed")] (some "fai")
    (∀ n m, (n, .abort m) ∉ s.faults) ∧
    (render c ⟨.epoch, 0⟩ r s).outcome = .failed (.sink "device rejected write") ∧
    (render c ⟨.epoch, 0⟩ r s).sink.journal =
      [⟨.foreground .black, true⟩, ⟨.background .darkRed, true⟩, ⟨.text "fail", false⟩,
        ⟨.foreground .cyan, false⟩] := by
  intro c r s
  have noAbort : ∀ n m, (n, .abort m) ∉ s.faults := by simp [s, Script.new]
  obtain ⟨m, hm, hout, hjournal⟩ := (render_runs_plan c ⟨.epoch, 0⟩ r s noAbort).2.2.1
    [.foreground .black, .background .darkRed] (.tag .fail)
    (Plan.restoring ⟨.cyan, .darkBlue⟩ ++ Plan.lines r) rfl ⟨rfl, rfl, trivial⟩ (by decide)
  refine ⟨noAbort, ?_, hjournal⟩
  cases hm
  exact hout

end Render

end ConsoleLog
