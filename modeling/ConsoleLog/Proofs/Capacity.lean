import ConsoleLog.Proofs.Batch
import ConsoleLog.Proofs.Output
import ConsoleLog.Proofs.Session

/-!
# Devices that fill up

A device with room for `n` bytes takes of every session the first `n` bytes of what the session
writes without a limit. Until it is full the two sessions go in step; the call that fills it fails,
and after that nothing is taken any more, whatever is tried.
-/

namespace ConsoleLog

namespace Terminal

variable {n : Nat}

structure Bounded (n : Nat) (s : Terminal) : Prop where
  capacity : s.device.capacity = some n
  length_le : s.device.accepted.length ≤ n
  flushFaults : s.device.flushFaults = []

theorem bounded_new (m : ColorMode) (n : Nat) : (new m (.new (some n) [])).Bounded n :=
  ⟨rfl, Nat.zero_le n, rfl⟩

/-- The terminal after more than fits: what fits is taken. -/
def cut (s : Terminal) (n : Nat) (bytes : List UInt8) : Terminal :=
  { s with device := { s.device with accepted := (s.device.accepted ++ bytes).take n } }

namespace Bounded

variable {s : Terminal}

theorem room_iff (h : s.Bounded n) (cs : List Call) :
    s.Room cs ↔ (s.accept cs).device.accepted.length ≤ n := by
  constructor
  · intro hroom
    exact hroom.capacity n h.capacity
  · intro hle
    refine ⟨fun k hk => ?_, h.flushFaults⟩
    rw [h.capacity] at hk
    cases hk
    exact hle

theorem accept (h : s.Bounded n) {cs : List Call} (hle : (s.accept cs).device.accepted.length ≤ n) :
    (s.accept cs).Bounded n := ⟨h.capacity, hle, h.flushFaults⟩

theorem cut (h : s.Bounded n) (bytes : List UInt8) : (s.cut n bytes).Bounded n :=
  ⟨h.capacity, List.length_take_le n _, h.flushFaults⟩

/-! ## Calls -/

theorem write_of_over (h : s.Bounded n) {text : String}
    (hover : n < (s.device.accepted ++ Text.bytes text).length) :
    s.write text = (.failed "writer full", s.cut n (Text.bytes text)) := by
  have hfits : s.device.fits (Text.bytes text) = false := by
    rw [List.length_append] at hover
    simp only [Device.fits, h.capacity]
    exact decide_eq_false (Nat.not_le.mpr hover)
  have htaken : s.device.accepted ++ s.device.admitted (Text.bytes text) =
      (s.device.accepted ++ Text.bytes text).take n := by
    simp only [Device.admitted, h.capacity]
    rw [List.take_append, List.take_of_length_le h.length_le]
  simp only [write, Device.write, hfits, htaken]
  rfl

theorem writeLine_of_over (h : s.Bounded n) {text : String}
    (hover : n < (s.device.accepted ++ Text.utf8 (Call.drawn s.mode (.line text))).length) :
    s.writeLine text =
      (.failed "writer full", s.cut n (Text.utf8 (Call.drawn s.mode (.line text)))) := by
  rw [utf8_drawn_line, ← List.append_assoc] at hover
  unfold writeLine
  by_cases htext : n < (s.device.accepted ++ Text.bytes text).length
  · rw [h.write_of_over htext]
    simp only [Terminal.cut]
    rw [utf8_drawn_line, ← List.append_assoc, List.take_append_of_le_length (Nat.le_of_lt htext)]
  · have hfits : s.device.fits (Text.bytes text) = true := by
      apply Device.fits_of_le
      intro k hk
      rw [h.capacity] at hk
      cases hk
      rw [List.length_append] at htext
      exact Nat.not_lt.mp htext
    have htaken : Bounded n { s with device := { s.device with
        accepted := s.device.accepted ++ Text.bytes text } } :=
      ⟨h.capacity, Nat.not_lt.mp htext, h.flushFaults⟩
    rw [write_of_fits hfits]
    simp only
    rw [htaken.write_of_over hover]
    simp only [Terminal.cut]
    rw [utf8_drawn_line, ← List.append_assoc]

theorem changeColor_of_over (h : s.Bounded n) {shown : Bool} {sequence : String} {c : Call}
    (hover : n < (s.device.accepted ++
      Text.utf8 (if shown then sequence.toList else [])).length) :
    s.changeColor shown sequence c = (.failed "writer full",
      s.cut n (Text.utf8 (if shown then sequence.toList else []))) := by
  cases shown with
  | true =>
    rw [if_pos rfl, Text.utf8_toList] at hover ⊢
    rw [changeColor, if_pos rfl, h.write_of_over hover]
  | false =>
    -- nothing is drawn, so there is room for it
    simp only [Bool.false_eq_true, if_false, Text.utf8_nil, List.append_nil] at hover
    exact absurd h.length_le (Nat.not_le.mpr hover)

theorem perform_of_over (h : s.Bounded n) {c : Call}
    (hover : n < (s.accept [c]).device.accepted.length) :
    s.perform c = (.failed "writer full", s.cut n (Text.utf8 (c.drawn s.mode))) := by
  rw [accept_singleton] at hover
  cases c with
  | text t =>
    rw [Call.drawn, Text.utf8_toList] at hover ⊢
    exact h.write_of_over hover
  | line t => exact h.writeLine_of_over hover
  | foreground c => exact h.changeColor_of_over hover
  | background c => exact h.changeColor_of_over hover

theorem perform_cases (h : s.Bounded n) (c : Call) :
    ((s.accept [c]).device.accepted.length ≤ n ∧ s.perform c = (.done, s.accept [c])) ∨
    (n < (s.accept [c]).device.accepted.length ∧ (s.perform c).1 ≠ .done ∧
      (s.perform c).2 = s.cut n (Text.utf8 (c.drawn s.mode))) := by
  by_cases hle : (s.accept [c]).device.accepted.length ≤ n
  · exact Or.inl ⟨hle, perform_of_room ((h.room_iff [c]).mpr hle)⟩
  · have hover := Nat.not_le.mp hle
    rw [h.perform_of_over hover]
    exact Or.inr ⟨hover, by simp, rfl⟩

theorem perform (h : s.Bounded n) (c : Call) : (s.perform c).2.Bounded n := by
  rcases h.perform_cases c with ⟨hle, hc⟩ | ⟨_, _, hc⟩
  · rw [hc]
    exact h.accept hle
  · rw [hc]
    exact h.cut _

theorem accepted_perform (h : s.Bounded n) (c : Call) :
    (s.perform c).2.device.accepted = (s.accept [c]).device.accepted.take n := by
  rcases h.perform_cases c with ⟨hle, hc⟩ | ⟨_, _, hc⟩
  · rw [hc, List.take_of_length_le hle]
  · rw [hc, accept_singleton]
    rfl

theorem performAll_done (h : s.Bounded n) {s' : Terminal} {cs : List Call}
    (hs : Sink.performAll s cs = (.done, s')) : s' = s.accept cs ∧ s'.Bounded n := by
  induction cs generalizing s with
  | nil =>
    cases hs
    exact ⟨(accept_nil _).symm, h⟩
  | cons c cs ih =>
    obtain ⟨s₁, hc, hcs⟩ := Sink.performAll_cons_done hs
    have hc : s.perform c = (.done, s₁) := hc
    rcases h.perform_cases c with ⟨hle, hdone⟩ | ⟨_, hne, _⟩
    · have hs₁ : s₁ = s.accept [c] := congrArg Prod.snd (hc.symm.trans hdone)
      rw [hs₁] at hcs
      obtain ⟨heq, hbounded⟩ := ih (h.accept hle) hcs
      rw [← accept_append] at heq
      exact ⟨heq, hbounded⟩
    · exact absurd (congrArg Prod.fst hc) hne

end Bounded

end Terminal

theorem Follows.full {n : Nat} {s s' : Terminal} {as : List (Attempt Terminal)}
    (h : Follows s as s') (hs : s.Bounded n) (hfull : s.device.accepted.length = n) :
    s'.device.accepted = s.device.accepted := by
  have hlast : s'.Bounded n ∧ s'.device.accepted = s.device.accepted := by
    refine h.invariant (fun x => x.Bounded n ∧ x.device.accepted = s.device.accepted) ?_ ⟨hs, rfl⟩
    rintro x c ⟨hx, haccepted⟩
    refine ⟨hx.perform c, (hx.accepted_perform c).trans ?_⟩
    rw [Terminal.accept_singleton, haccepted, List.take_append_of_le_length (Nat.le_of_eq hfull.symm),
      ← hfull, List.take_length]
  exact hlast.2

theorem Follows.bounded {n : Nat} {s s' : Terminal} {as : List (Attempt Terminal)}
    (h : Follows s as s') (hs : s.Bounded n) : s'.Bounded n :=
  h.invariant (Terminal.Bounded n) (fun _ c hx => hx.perform c) hs

/-! ## Plans -/

section
variable {n : Nat} {ε : Type} {t : Trace Terminal ε} {s : Terminal} {ps : List Planned}

theorem Trace.Stops.of_bounded (h : t.Stops s ps) (hs : s.Bounded n) :
    n < (s.accept (Plan.calls ps)).device.accepted.length ∧
      t.sink.device.accepted = (s.accept (Plan.calls ps)).device.accepted.take n := by
  obtain ⟨_, pre, p, post, s₁, rfl, hpre, hp, as, hlater⟩ := h
  obtain ⟨rfl, hs₁⟩ := hs.performAll_done hpre
  have hp : (Terminal.perform (s.accept (Plan.calls pre)) p.call).1 ≠ .done := hp
  have hsplit : Plan.calls (pre ++ p :: post) = (Plan.calls pre ++ [p.call]) ++ Plan.calls post := by
    simp [Plan.calls]
  rw [hsplit, Terminal.accepted_accept_append, Terminal.accept_append]
  rcases hs₁.perform_cases p.call with ⟨_, hdone⟩ | ⟨hover, _, _⟩
  · rw [hdone] at hp
    exact absurd rfl hp
  · -- the call that is not done fills the device
    have hlast := hs₁.accepted_perform p.call
    have hfull := congrArg List.length hlast
    rw [List.length_take_of_le (Nat.le_of_lt hover)] at hfull
    have hkept := hlater.full (hs₁.perform p.call) hfull
    rw [List.take_append_of_le_length (Nat.le_of_lt hover), List.length_append]
    exact ⟨Nat.lt_add_right _ hover, hkept.trans hlast⟩

theorem Trace.Runs.of_bounded (h : t.Runs s ps) (hs : s.Bounded n) :
    t.sink.device.accepted = (s.accept (Plan.calls ps)).device.accepted.take n ∧
      (t.outcome = .done ↔ (s.accept (Plan.calls ps)).device.accepted.length ≤ n) ∧
      ((s.accept (Plan.calls ps)).device.accepted.length ≤ n → t.sink = s.accept (Plan.calls ps)) := by
  rcases h with h | h
  · obtain ⟨hsink, hbounded⟩ := hs.performAll_done h.performed
    rw [hsink] at hbounded ⊢
    exact ⟨(List.take_of_length_le hbounded.length_le).symm,
      iff_of_true h.outcome hbounded.length_le, fun _ => rfl⟩
  · obtain ⟨hover, haccepted⟩ := h.of_bounded hs
    exact ⟨haccepted, iff_of_false h.1 (Nat.not_le.mpr hover),
      fun hle => absurd hover (Nat.not_lt.mpr hle)⟩

end

namespace Terminal

theorem length_lt_of_line {s : Terminal} {cs : List Call} {text : String} (h : .line text ∈ cs) :
    s.device.accepted.length < (s.accept cs).device.accepted.length := by
  obtain ⟨pre, post, rfl⟩ := List.append_of_mem h
  have hfeed : (Text.bytes "\n").length = 1 := rfl
  have hsplit : pre ++ .line text :: post = pre ++ [.line text] ++ post := by
    simp
  rw [hsplit, accepted_accept_append, accept_append, accept_singleton, utf8_drawn_line]
  simp only [accept, List.length_append, hfeed]
  omega

/-! ## Two sessions -/

/-- The first terminal has taken what fits of the second one's output, and if all fits it shows the
same colors. -/
structure Fills (n : Nat) (s t : Terminal) : Prop where
  bounded : s.Bounded n
  unlimited : t.Unlimited
  accepted : s.device.accepted = t.device.accepted.take n
  inStep : t.device.accepted.length ≤ n → s.mode = t.mode ∧ s.colors = t.colors

namespace Fills

variable {n : Nat} {s s' t : Terminal} {c : Settings}

theorem new (m : ColorMode) (n : Nat) :
    Fills n (.new m (.new (some n) [])) (.new m (.new none [])) :=
  ⟨bounded_new m n, unlimited_new m, List.take_nil.symm, fun _ => ⟨rfl, rfl⟩⟩

theorem full (h : Fills n s t) (hover : n < t.device.accepted.length) :
    s.device.accepted.length = n := by
  rw [h.accepted, List.length_take_of_le (Nat.le_of_lt hover)]

theorem accept_of_over (h : Fills n s t) (hover : n < t.device.accepted.length)
    (hs' : s'.Bounded n) (hkept : s'.device.accepted = s.device.accepted) (cs : List Call) :
    Fills n s' (t.accept cs) := by
  have haccepted : (t.accept cs).device.accepted.take n = t.device.accepted.take n :=
    List.take_append_of_le_length (Nat.le_of_lt hover)
  refine ⟨hs', h.unlimited.accept cs, ?_, fun hle => ?_⟩
  · rw [hkept, h.accepted, haccepted]
  · simp only [accept, List.length_append] at hle
    omega

theorem accepted_accept (h : Fills n s t) (hle : t.device.accepted.length ≤ n) (cs : List Call) :
    (s.accept cs).device.accepted = (t.accept cs).device.accepted := by
  simp only [accept, h.accepted, (h.inStep hle).1, List.take_of_length_le hle]

theorem record (h : Fills n s t) {clock clock' : Time.Clock} {r : RecordView}
    (same : Plan.timestamp? c clock r = Plan.timestamp? c clock' r) :
    Fills n (Trace.record c clock r s).sink (Trace.record c clock' r t).sink ∧
      ((Trace.record c clock r s).outcome = .done ↔ (Trace.record c clock' r t).outcome = .done ∧
        (Trace.record c clock' r t).sink.device.accepted.length ≤ n) := by
  cases hstamp : Plan.timestamp? c clock' r with
  | none =>
    obtain ⟨hout, hsink⟩ := Trace.record_of_unformatted (same.trans hstamp) s
    obtain ⟨hout', hsink'⟩ := Trace.record_of_unformatted hstamp t
    rw [hsink, hsink']
    exact ⟨h, iff_of_false hout fun hboth => hout' hboth.1⟩
  | some stamp =>
    have hplan := Plan.ofRecord?_of_timestamp (same.trans hstamp)
    have hplan' := Plan.ofRecord?_of_timestamp hstamp
    obtain ⟨hdone', hsink'⟩ :=
      (Trace.runs_record c (hplan' _)).completes (performAll_of_room (h.unlimited.room _))
    obtain ⟨haccepted, hdone, hsink⟩ := (Trace.runs_record c (hplan _)).of_bounded h.bounded
    have hbounded := (Trace.follows_record c clock r s).bounded h.bounded
    rw [hsink', hdone', hdone, eq_self, true_and]
    by_cases hle : t.device.accepted.length ≤ n
    · -- the two draw the same
      obtain ⟨hmode, hcolors⟩ := h.inStep hle
      have hcolors : Sink.colors s = Sink.colors t := hcolors
      rw [hcolors] at haccepted hsink ⊢
      rw [h.accepted_accept hle] at haccepted hsink ⊢
      refine ⟨⟨hbounded, h.unlimited.accept _, haccepted, fun hfits => ?_⟩, Iff.rfl⟩
      rw [hsink hfits]
      exact ⟨hmode, congrArg (Call.recolorAll _) hcolors⟩
    · -- the first is full
      have hover := Nat.not_le.mp hle
      have hfull := h.full hover
      have hkept := (Trace.follows_record c clock r s).full h.bounded hfull
      have hlonger : ∀ (x : Terminal) (ps : List Planned), x.device.accepted.length <
          (x.accept (Plan.calls (ps ++ Plan.lines r))).device.accepted.length :=
        fun x ps => length_lt_of_line (Plan.header_mem_calls r ps)
      refine ⟨h.accept_of_over hover hbounded hkept _, iff_of_false ?_ ?_⟩
      · have := hlonger s (stamp ++ Plan.colored c r ++ Plan.restoring (Sink.colors s))
        omega
      · have := hlonger t (stamp ++ Plan.colored c r ++ Plan.restoring (Sink.colors t))
        omega

theorem batch_of_over (h : Fills n s t) (hover : n < t.device.accepted.length)
    (clock : Nat → Time.Clock) (i : Nat) (rs : List RecordView) :
    Fills n s (Trace.batch c clock i t rs).sink ∧
      n < (Trace.batch c clock i t rs).sink.device.accepted.length := by
  rw [batch_of_unlimited c clock i h.unlimited rs]
  refine ⟨h.accept_of_over hover h.bounded rfl _, ?_⟩
  simp only [accept, List.length_append]
  omega

theorem batch (h : Fills n s t) {clock clock' : Nat → Time.Clock} {rs : List RecordView}
    (same : ∀ r ∈ rs, ∀ i, Plan.timestamp? c (clock i) r = Plan.timestamp? c (clock' i) r) (i : Nat) :
    Fills n (Trace.batch c clock i s rs).sink (Trace.batch c clock' i t rs).sink ∧
      ((Trace.batch c clock i s rs).outcome = .done ↔
        (Trace.batch c clock' i t rs).outcome = .done ∧
        (rs = [] ∨ (Trace.batch c clock' i t rs).sink.device.accepted.length ≤ n)) := by
  induction rs generalizing i s t with
  | nil => exact ⟨h, iff_of_true rfl ⟨rfl, Or.inl rfl⟩⟩
  | cons r rs ih =>
    obtain ⟨hfirst, hdone⟩ := h.record (same r List.mem_cons_self i)
    have hmap : ∀ (cl : Nat → Time.Clock) (x : Terminal),
        ((Trace.record c (cl i) r x).mapError (ExportError.mk i)).outcome = .done ↔
          (Trace.record c (cl i) r x).outcome = .done := fun _ _ => Outcome.map_eq_done_iff _ _
    rw [Trace.batch, Trace.batch]
    by_cases hs : (Trace.record c (clock i) r s).outcome = .done
    · obtain ⟨ht, hle⟩ := hdone.mp hs
      rw [Trace.andThen_of_done ((hmap clock s).mpr hs), Trace.andThen_of_done ((hmap clock' t).mpr ht)]
      obtain ⟨hrest, hiff⟩ := ih hfirst (fun r' hr => same r' (List.mem_cons_of_mem r hr)) (i + 1)
      refine ⟨hrest, hiff.trans (and_congr_right fun _ => ?_)⟩
      constructor
      · rintro (rfl | hlast)
        · exact Or.inr hle
        · exact Or.inr hlast
      · rintro (hnil | hlast)
        · cases hnil
        · exact Or.inr hlast
    · rw [Trace.andThen_of_ne_done fun hout => hs ((hmap clock s).mp hout)]
      by_cases ht : (Trace.record c (clock' i) r t).outcome = .done
      · -- the first has stopped full, the second goes on
        have hover : n < (Trace.record c (clock' i) r t).sink.device.accepted.length :=
          Nat.not_le.mp fun hle => hs (hdone.mpr ⟨ht, hle⟩)
        rw [Trace.andThen_of_done ((hmap clock' t).mpr ht)]
        obtain ⟨hfills, hlonger⟩ := hfirst.batch_of_over (c := c) hover clock' (i + 1) rs
        refine ⟨hfills, iff_of_false (fun hout => hs ((hmap clock s).mp hout)) ?_⟩
        rintro ⟨_, hnil | hle⟩
        · cases hnil
        · exact absurd hlonger (Nat.not_lt.mpr hle)
      · rw [Trace.andThen_of_ne_done fun hout => ht ((hmap clock' t).mp hout)]
        exact ⟨hfirst, iff_of_false (fun hout => hs ((hmap clock s).mp hout))
          fun hboth => ht ((hmap clock' t).mp hboth.1)⟩

end Fills

end Terminal

namespace Exporter

structure Fills (n : Nat) (e e' : Exporter Terminal) : Prop where
  settings : e.settings = e'.settings
  isShutdown : e.isShutdown = e'.isShutdown
  sink : e.sink.Fills n e'.sink

namespace Fills

variable {n : Nat} {e e' : Exporter Terminal}

theorem of_release {t t' : Terminal} (h : t.Fills n t') {c : Settings} {l l' : Lock Terminal}
    {aborted aborted' isShutdown : Bool} :
    Fills n ⟨c, l.release t aborted, isShutdown⟩ ⟨c, l'.release t' aborted', isShutdown⟩ := by
  refine ⟨rfl, rfl, ?_⟩
  rwa [sink_mk, sink_mk]

theorem step (h : e.Fills n e') {clock clock' : Nat → Time.Clock} {op : Operation}
    (same : ∀ r ∈ op.views, ∀ i,
      Plan.timestamp? e'.settings (clock i) r = Plan.timestamp? e'.settings (clock' i) r) :
    (e.step clock op).exporter.Fills n (e'.step clock' op).exporter ∧
      ((e.step clock op).reply.Succeeded ↔ (e'.step clock' op).reply.Succeeded ∧
        (op.views = [] ∨ (e'.step clock' op).exporter.sink.device.accepted.length ≤ n)) := by
  obtain ⟨c, s, flag⟩ := e
  obtain ⟨c', s', flag'⟩ := e'
  obtain ⟨rfl, rfl, hsink⟩ := h
  rw [step_eq, step_eq]
  simp only [sink_mk, Lock.value_release] at hsink ⊢
  cases op with
  | «export» rs =>
    cases flag with
    | true => exact ⟨of_release hsink, by simp [Operation.replyFor, Reply.Succeeded]⟩
    | false =>
      obtain ⟨hbatch, hiff⟩ := hsink.batch same 0
      refine ⟨of_release hbatch, ?_⟩
      simp only [Operation.replyFor, Reply.Succeeded, Bool.false_eq_true, if_false,
        Outcome.map_eq_done_iff]
      exact hiff
  | exportBatch rs =>
    obtain ⟨hbatch, hiff⟩ := hsink.batch same 0
    exact ⟨of_release hbatch, hiff⟩
  | shutdown => exact ⟨of_release hsink, iff_of_true trivial ⟨trivial, Or.inl rfl⟩⟩
  | describe => exact ⟨of_release hsink, iff_of_true trivial ⟨trivial, Or.inl rfl⟩⟩

theorem after (h : e.Fills n e') {clock clock' : Nat → Nat → Time.Clock} {ops : List Operation}
    (same : ∀ op ∈ ops, ∀ r ∈ op.views, ∀ k i,
      Plan.timestamp? e'.settings (clock k i) r = Plan.timestamp? e'.settings (clock' k i) r) :
    (e.after clock ops).Fills n (e'.after clock' ops) := by
  induction ops generalizing clock clock' e e' with
  | nil => exact h
  | cons op ops ih =>
    obtain ⟨hstep, _⟩ := h.step fun r hr => same op List.mem_cons_self r hr 0
    apply ih hstep
    intro op' hop r hr k
    rw [step_settings]
    exact same op' (List.mem_cons_of_mem op hop) r hr (k + 1)

end Fills

/-- A new exporter on a new terminal, whose device takes so many bytes. -/
def onDevice (c : Settings) (mode : ColorMode) (capacity : Option Nat) : Exporter Terminal :=
  ⟨c, .new (.new mode (.new capacity [])), false⟩

/-- A device with room for `n` bytes takes the first `n` of those that the session writes on one
without a limit, and an operation that draws anything succeeds if it succeeds there and all that was
written up to its end fits. -/
theorem session_fills_device (c : Settings) (mode : ColorMode) (n : Nat)
    (clock clock' : Nat → Nat → Time.Clock) (ops : List Operation)
    (same : ∀ op ∈ ops, ∀ r ∈ op.views, ∀ k i,
      Plan.timestamp? c (clock k i) r = Plan.timestamp? c (clock' k i) r) :
    ((onDevice c mode (some n)).lastSink clock ops).device.accepted =
      ((onDevice c mode none).lastSink clock' ops).device.accepted.take n ∧
    ∀ (k : Nat) (op : Operation), ops[k]? = some op → ∃ st st' : Step Terminal,
      ((onDevice c mode (some n)).session clock ops)[k]? = some st ∧
      ((onDevice c mode none).session clock' ops)[k]? = some st' ∧
      st.exporter.sink.device.accepted = st'.exporter.sink.device.accepted.take n ∧
      (st.reply.Succeeded ↔ st'.reply.Succeeded ∧
        (op.views = [] ∨ st'.exporter.sink.device.accepted.length ≤ n)) := by
  have hnew : (onDevice c mode (some n)).Fills n (onDevice c mode none) := ⟨rfl, rfl, .new mode n⟩
  refine ⟨?_, fun k op hop => ?_⟩
  · rw [← sink_after, ← sink_after]
    exact (hnew.after same).sink.accepted
  · obtain ⟨hk, rfl⟩ := List.getElem?_eq_some_iff.mp hop
    have hsplit : ops.take k ++ ops[k] :: ops.drop (k + 1) = ops := by
      rw [List.getElem_cons_drop, List.take_append_drop]
    have hlength : (ops.take k).length = k := List.length_take_of_le (Nat.le_of_lt hk)
    have hst := session_getElem?_length clock (onDevice c mode (some n)) (ops.take k)
      (ops.drop (k + 1)) ops[k]
    have hst' := session_getElem?_length clock' (onDevice c mode none) (ops.take k)
      (ops.drop (k + 1)) ops[k]
    rw [hsplit, hlength] at hst hst'
    have hprior : ((onDevice c mode (some n)).after clock (ops.take k)).Fills n
        ((onDevice c mode none).after clock' (ops.take k)) :=
      hnew.after fun op hop => same op (List.mem_of_mem_take hop)
    have hsettings : ((onDevice c mode none).after clock' (ops.take k)).settings = c :=
      settings_after _ _ _
    rw [← hsettings] at same
    obtain ⟨hstep, hiff⟩ := hprior.step fun r hr => same ops[k] (List.getElem_mem hk) r hr k
    exact ⟨_, _, hst, hst', hstep.sink.accepted, hiff⟩

/-- The room ends within the escape sequence that the second record's severity begins with. -/
theorem session_fills_device_within_sequence :
    let format : Time.Format := ⟨"%H ", [.number .hour .zeros, .literal ' '], by decide⟩
    let c : Settings := ⟨some format, true, .standard⟩
    let r : RecordView := ⟨.level .warning, "App", 7, some "m", none, none, some .epoch⟩
    let ops : List Operation := [.exportBatch [r], .shutdown, .exportBatch [r]]
    let clock : Nat → Nat → Time.Clock := fun _ _ => ⟨.epoch, 0⟩
    let clock' : Nat → Nat → Time.Clock := fun k _ => ⟨.epoch, k⟩
    (∀ op ∈ ops, ∀ r ∈ op.views, ∀ k i,
      Plan.timestamp? c (clock k i) r = Plan.timestamp? c (clock' k i) r) ∧
    ∃ st st' : Step Terminal,
      ((onDevice c .full (some 60)).session clock ops)[2]? = some st ∧
      ((onDevice c .full none).session clock' ops)[2]? = some st' ∧
      st.exporter.sink.device.accepted = st'.exporter.sink.device.accepted.take 60 ∧
      st'.reply.Succeeded ∧ ¬ st.reply.Succeeded := by
  intro format c r ops clock clock'
  have hviews : ∀ op ∈ ops, ∀ q ∈ op.views, q = r := by
    simp [ops, Operation.views]
  have same : ∀ op ∈ ops, ∀ r ∈ op.views, ∀ k i,
      Plan.timestamp? c (clock k i) r = Plan.timestamp? c (clock' k i) r := by
    intro op hop q hq k i
    rw [hviews op hop q hq]
    rfl
  obtain ⟨_, hsteps⟩ := session_fills_device c .full 60 clock clock' ops same
  obtain ⟨st, st', hst, hst', haccepted, hiff⟩ := hsteps 2 _ rfl
  refine ⟨same, st, st', hst, hst', haccepted, ?_⟩
  have hlast : ((onDevice c .full none).session clock' ops)[2]?.map
      (fun x => (x.reply, x.exporter.sink.device.accepted.length)) = some (.batch .done, 106) := by
    decide
  rw [hst'] at hlast
  obtain ⟨hreply, hlength⟩ := Prod.mk.inj (Option.some.inj hlast)
  rw [hlength] at hiff
  rw [hiff, hreply]
  simp [Reply.Succeeded, Operation.views]

end Exporter

end ConsoleLog
