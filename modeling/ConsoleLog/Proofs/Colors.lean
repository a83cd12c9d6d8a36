import ConsoleLog.Sink

/-!
# Colors under lists of calls

A lawful sink shows the colors of the color calls that were done: a call that is done recolors, and
one that is not leaves the colors alone. `performAll_cases` says how far a list of calls gets.
-/

namespace ConsoleLog

theorem Outcome.aborted_cases {ε : Type} (o : Outcome ε) :
    (∃ m, o = .aborted m) ∨ ∀ m, o ≠ .aborted m := by
  cases o with
  | aborted m => exact Or.inl ⟨m, rfl⟩
  | done => simp
  | failed e => simp

theorem Outcome.map_eq_done_iff {ε δ : Type} (f : ε → δ) (o : Outcome ε) :
    o.map f = .done ↔ o = .done := by
  cases o <;> simp [Outcome.map]

theorem Outcome.map_eq_failed_iff {ε δ : Type} (f : ε → δ) (o : Outcome ε) (d : δ) :
    o.map f = .failed d ↔ ∃ e, o = .failed e ∧ f e = d := by
  cases o <;> simp [Outcome.map]

class LawfulSink (σ : Type) [Sink σ] : Prop where
  colors_of_done {s s' : σ} {c : Call} (h : Sink.perform s c = (.done, s')) :
    Sink.colors s' = c.recolor (Sink.colors s)
  colors_of_ne_done {s : σ} {c : Call} (h : (Sink.perform s c).1 ≠ .done) :
    Sink.colors (Sink.perform s c).2 = Sink.colors s

namespace Call

def recolorAll : List Call → ColorPair → ColorPair
  | [], p => p
  | c :: cs, p => recolorAll cs (c.recolor p)

theorem recolorAll_append (cs ds : List Call) (p : ColorPair) :
    recolorAll (cs ++ ds) p = recolorAll ds (recolorAll cs p) := by
  induction cs generalizing p with
  | nil => rfl
  | cons c cs ih => exact ih (c.recolor p)

theorem recolorAll_of_written {cs : List Call} (h : ∀ c ∈ cs, c.written? ≠ none) (p : ColorPair) :
    recolorAll cs p = p := by
  induction cs with
  | nil => rfl
  | cons c cs ih =>
    have hc : c.recolor p = p := by
      have := h c (by simp)
      cases c <;> first | rfl | simp [written?] at this
    rw [recolorAll, hc]
    exact ih fun d hd => h d (List.mem_cons_of_mem _ hd)

end Call

namespace Sink

variable {σ : Type} [Sink σ]

theorem performAll_cons_of_done {s s' : σ} {c : Call} (h : perform s c = (.done, s')) (cs : List Call) :
    performAll s (c :: cs) = performAll s' cs := by
  rw [performAll, h]

theorem performAll_cons_of_ne_done {s : σ} {c : Call} (h : (perform s c).1 ≠ .done) (cs : List Call) :
    performAll s (c :: cs) = perform s c := by
  rw [performAll]
  split
  · rename_i s' hs
    rw [hs] at h
    exact absurd rfl h
  · rfl

theorem perform_cases (s : σ) (c : Call) :
    (∃ s', perform s c = (.done, s')) ∨ (perform s c).1 ≠ .done := by
  by_cases h : (perform s c).1 = .done
  · exact Or.inl ⟨(perform s c).2, Prod.ext h rfl⟩
  · exact Or.inr h

theorem performAll_cons_done {s s' : σ} {c : Call} {cs : List Call}
    (h : performAll s (c :: cs) = (.done, s')) :
    ∃ s₁, perform s c = (.done, s₁) ∧ performAll s₁ cs = (.done, s') := by
  rcases perform_cases s c with ⟨s₁, hc⟩ | hc
  · rw [performAll_cons_of_done hc] at h
    exact ⟨s₁, hc, h⟩
  · rw [performAll_cons_of_ne_done hc] at h
    exact absurd (congrArg Prod.fst h) hc

theorem performAll_append_of_done {s s' : σ} {cs : List Call} (h : performAll s cs = (.done, s'))
    (ds : List Call) : performAll s (cs ++ ds) = performAll s' ds := by
  induction cs generalizing s with
  | nil =>
    cases h
    rfl
  | cons c cs ih =>
    obtain ⟨s₁, hc, hcs⟩ := performAll_cons_done h
    rw [List.cons_append, performAll_cons_of_done hc, ih hcs]

/-- All calls are done, or the first that is not ends them. -/
theorem performAll_cases (s : σ) (cs : List Call) :
    (∃ s', performAll s cs = (.done, s')) ∨
    ∃ pre c post s', cs = pre ++ c :: post ∧ performAll s pre = (.done, s') ∧
      (perform s' c).1 ≠ .done ∧ performAll s cs = perform s' c := by
  induction cs generalizing s with
  | nil => exact Or.inl ⟨s, rfl⟩
  | cons c cs ih =>
    rcases perform_cases s c with ⟨s₁, hc⟩ | hc
    · simp only [performAll_cons_of_done hc]
      rcases ih s₁ with h | ⟨pre, d, post, s', rfl, hpre, hd, hall⟩
      · exact Or.inl h
      · exact Or.inr ⟨c :: pre, d, post, s', rfl, (performAll_cons_of_done hc _).trans hpre, hd, hall⟩
    · exact Or.inr ⟨[], c, cs, s, rfl, rfl, hc, performAll_cons_of_ne_done hc cs⟩

theorem colors_performAll_of_done [LawfulSink σ] {s s' : σ} {cs : List Call}
    (h : performAll s cs = (.done, s')) : colors s' = Call.recolorAll cs (colors s) := by
  induction cs generalizing s with
  | nil =>
    cases h
    rfl
  | cons c cs ih =>
    obtain ⟨s₁, hc, hcs⟩ := performAll_cons_done h
    rw [ih hcs, LawfulSink.colors_of_done hc]
    rfl

theorem colors_performAll_of_ne_done [LawfulSink σ] {s s' : σ} {pre post : List Call} {c : Call}
    (hpre : performAll s pre = (.done, s')) (hc : (perform s' c).1 ≠ .done) :
    colors (performAll s (pre ++ c :: post)).2 = Call.recolorAll pre (colors s) := by
  rw [performAll_append_of_done hpre, performAll_cons_of_ne_done hc, LawfulSink.colors_of_ne_done hc,
    colors_performAll_of_done hpre]

/-- Writing leaves the colors alone, however far it gets. -/
theorem colors_performAll_of_written [LawfulSink σ] (s : σ) {cs : List Call}
    (h : ∀ c ∈ cs, c.written? ≠ none) : colors (performAll s cs).2 = colors s := by
  rcases performAll_cases s cs with ⟨s', hs⟩ | ⟨pre, c, post, s', rfl, hpre, hc, _⟩
  · rw [hs, colors_performAll_of_done hs, Call.recolorAll_of_written h]
  · rw [colors_performAll_of_ne_done hpre hc,
      Call.recolorAll_of_written fun d hd => h d (List.mem_append_left _ hd)]

end Sink

end ConsoleLog
