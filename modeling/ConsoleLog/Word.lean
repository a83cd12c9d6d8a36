/-!
# Signed words of 64 bits

Arithmetic that gives its exact result, and none where no word holds it.
-/

namespace ConsoleLog.Word

def ofInt? (z : Int) : Option Int64 :=
  if Int64.minValue.toInt ≤ z ∧ z ≤ Int64.maxValue.toInt then some (Int64.ofInt z) else none

def neg? (w : Int64) : Option Int64 := ofInt? (-w.toInt)

def sub? (w v : Int64) : Option Int64 := ofInt? (w.toInt - v.toInt)

theorem ofInt?_eq_some_iff {z : Int} {w : Int64} : ofInt? z = some w ↔ w.toInt = z := by
  unfold ofInt?
  rw [Int64.toInt_minValue, Int64.toInt_maxValue]
  constructor
  · intro h
    split at h
    · rename_i hz
      cases h
      apply Int64.toInt_ofInt_of_le
      · exact hz.1
      · omega
    · cases h
  · intro h
    have hlow := Int64.le_toInt w
    have hhigh := Int64.toInt_lt w
    rw [if_pos (by omega), ← h, Int64.ofInt_toInt]

theorem exists_ofInt? {z : Int} (hlow : Int64.minValue.toInt ≤ z) (hhigh : z ≤ Int64.maxValue.toInt) :
    ∃ w, ofInt? z = some w ∧ w.toInt = z := by
  have hsome : ofInt? z = some (Int64.ofInt z) := if_pos ⟨hlow, hhigh⟩
  exact ⟨_, hsome, ofInt?_eq_some_iff.mp hsome⟩

end ConsoleLog.Word
