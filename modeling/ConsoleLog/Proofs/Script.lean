import ConsoleLog.Proofs.Trace
import ConsoleLog.Sink.Script

/-!
# Scripted sinks under calls

What a call adds to the journal, that a script itself never changes, and that the journal's numbers
decide which calls fail.
-/

namespace ConsoleLog

namespace Script

theorem perform_of_fault {s : Script} {c : Call} {f : Fault} (h : s.fault? c = some f) :
    s.perform c = (f.outcome, s.record c false) := by
  rw [perform, h]

theorem perform_of_clear {s : Script} {c : Call} (h : s.fault? c = none) :
    s.perform c = (.done, { s.record c true with colors := c.recolor s.colors }) := by
  rw [perform, h]

theorem outcome_ne_done (f : Fault) : f.outcome ≠ .done := by
  cases f <;> simp [Fault.outcome]

instance : LawfulSink Script where
  colors_of_done {s s' c} h := by
    change s.perform c = _ at h
    cases hf : s.fault? c with
    | none =>
      rw [perform_of_clear hf] at h
      cases h
      rfl
    | some f =>
      rw [perform_of_fault hf] at h
      exact absurd (congrArg Prod.fst h) (outcome_ne_done f)
  colors_of_ne_done {s c} h := by
    change (s.perform c).1 ≠ _ at h
    change Script.colors (s.perform c).2 = s.colors
    cases hf : s.fault? c with
    | none =>
      rw [perform_of_clear hf] at h
      exact absurd rfl h
    | some f =>
      rw [perform_of_fault hf]
      rfl

theorem perform_faults (s : Script) (c : Call) : (s.perform c).2.faults = s.faults := by
  unfold perform
  split <;> rfl

theorem faultAt?_of_not_written {c : Call} (h : c.written? = none) (s : Script) (n : Nat) :
    s.faultAt? n c = s.faults.lookup n := by
  have hp : s.isPoisoned c = false := by
    unfold isPoisoned
    rw [h]
    cases s.poison <;> rfl
  unfold faultAt?
  rw [hp]
  cases s.faults.lookup n <;> rfl

theorem faultAt?_ne_abort {s : Script} (h : ∀ n m, (n, .abort m) ∉ s.faults) (n : Nat) (c : Call)
    (m : String) : s.faultAt? n c ≠ some (.abort m) := by
  unfold faultAt?
  cases hl : s.faults.lookup n with
  | none =>
    simp only
    split <;> simp
  | some f =>
    intro hf
    cases hf
    obtain ⟨pre, post, hs, _⟩ := List.lookup_eq_some_iff.mp hl
    exact h n m (by rw [hs]; simp)

theorem perform_ne_aborted {s : Script} (h : ∀ n m, (n, .abort m) ∉ s.faults) (c : Call)
    (m : String) : (s.perform c).1 ≠ .aborted m := by
  cases hf : s.fault? c with
  | none =>
    rw [perform_of_clear hf]
    simp
  | some f =>
    rw [perform_of_fault hf]
    cases f with
    | failure m' => simp [Fault.outcome]
    | abort m' => exact absurd hf (faultAt?_ne_abort h _ _ _)

theorem perform_journal (s : Script) (c : Call) :
    (s.perform c).2.journal = s.journal ++ [⟨c, (s.perform c).1 = .done⟩] := by
  cases h : s.fault? c with
  | none =>
    rw [perform_of_clear h]
    rfl
  | some f =>
    rw [perform_of_fault h]
    simp [record, outcome_ne_done]

end Script

def Attempt.entry (a : Attempt Script) : JournalEntry := ⟨a.planned.call, a.outcome = .done⟩

theorem Follows.journal {s s' : Script} {as : List (Attempt Script)} (h : Follows s as s') :
    s'.journal = s.journal ++ as.map Attempt.entry := by
  induction as generalizing s with
  | nil =>
    cases h
    simp
  | cons a as ih =>
    obtain ⟨rfl, h⟩ := h
    have ha : a.after.journal = a.before.journal ++ [a.entry] := Script.perform_journal _ _
    rw [ih h, ha]
    simp

theorem Follows.faults {s s' : Script} {as : List (Attempt Script)} (h : Follows s as s') :
    ∀ a ∈ as, a.before.faults = s.faults := by
  induction as generalizing s with
  | nil => simp
  | cons a as ih =>
    obtain ⟨rfl, h⟩ := h
    intro b hb
    cases hb with
    | head => rfl
    | tail _ hb => rw [ih h b hb]; exact Script.perform_faults _ _

end ConsoleLog
