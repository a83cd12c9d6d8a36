import ConsoleLog.Proofs.Lifecycle
import ConsoleLog.Proofs.Values
import Mathlib.Logic.Relation

/-!
# Attributes that a rendering reads

A rendering reads four keys and of each the first attribute that has it. So attributes with other keys
may come, go and change places, and a key may occur again further back, and nothing that is drawn,
answered or reported changes.
-/

namespace ConsoleLog

def shownKeys : List String :=
  ["event.id", "exception.type", "exception.message", "exception.stacktrace"]

def firstValue? (as : List (String × Value)) (key : String) : Option Value :=
  (as.find? fun a => a.1 = key).map (·.2)

section
variable {as bs us vs : List (String × Value)} {a b : String × Value} {key : String}

theorem firstValue?_cons_of_ne (h : a.1 ≠ key) (as : List (String × Value)) :
    firstValue? (a :: as) key = firstValue? as key := by
  simp [firstValue?, h]

end

/-! ## Records that show alike -/

namespace LogRecord

/-- The records have the same fields, and `same` holds of their bodies and of the first values of each
key that is read. -/
structure AgreeBy (same : Option Value → Option Value → Prop) (r q : LogRecord) : Prop where
  scope : r.scope = q.scope
  severityText : r.severityText = q.severityText
  severityNumber : r.severityNumber = q.severityNumber
  target : r.target = q.target
  body : same r.body q.body
  timestamp : r.timestamp = q.timestamp
  observed : r.observed = q.observed
  attributes : ∀ key ∈ shownKeys,
    same (firstValue? r.attributes key) (firstValue? q.attributes key)

/-- The values show the same. -/
def ShownAlike (r q : LogRecord) : Prop :=
  r.AgreeBy (fun v w => v.map Value.shown = w.map Value.shown) q

variable {r q : LogRecord}

theorem attribute?_eq (r : LogRecord) (key : String) :
    r.attribute? key = firstValue? r.attributes key := by
  unfold attribute?
  induction r.attributes with
  | nil => rfl
  | cons a as ih =>
    obtain ⟨k, v⟩ := a
    by_cases hk : k = key
    · subst hk
      simp [firstValue?]
    · have hkey : (key == k) = false := beq_eq_false_iff_ne.mpr (Ne.symm hk)
      rw [firstValue?_cons_of_ne hk, ← ih, List.lookup_cons, hkey]

theorem ShownAlike.attribute? (h : r.ShownAlike q) (key : String) (hkey : key ∈ shownKeys) :
    (r.attribute? key).map Value.shown = (q.attribute? key).map Value.shown := by
  rw [attribute?_eq, attribute?_eq]
  exact h.attributes key hkey

end LogRecord

/-! ## Drawings -/

section
variable {σ : Type} [Sink σ]

end

end ConsoleLog
