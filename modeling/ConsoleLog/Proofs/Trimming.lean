import ConsoleLog.Text.Blank

/-!
# What trimming leaves

Trimming cuts off blanks and nothing else, at both ends, and leaves no blank there. So a text of solid
characters between blanks is what trimming leaves (`betweenBlanks_iff`), and a blank inside stays.
-/

namespace ConsoleLog.Text

theorem trimStart_append_of_blank {u : List Char} (h : ∀ c ∈ u, isBlank c = true) (cs : List Char) :
    trimStart (u ++ cs) = trimStart cs :=
  List.dropWhile_append_of_pos h

theorem trimStart_append_of_mem {u : List Char} {x : Char} (hx : x ∈ u) (hsolid : isBlank x = false)
    (cs : List Char) : trimStart (u ++ cs) = trimStart u ++ cs := by
  induction u with
  | nil => cases hx
  | cons c u ih =>
    by_cases hc : isBlank c = true
    · have hu : x ∈ u := by
        refine (List.mem_cons.mp hx).resolve_left fun h => ?_
        rw [h, hc] at hsolid
        cases hsolid
      have hdrop : ∀ r, trimStart (c :: r) = trimStart r := fun r => List.dropWhile_cons_of_pos hc
      rw [List.cons_append, hdrop, hdrop, ih hu]
    · have hkeep : ∀ r, trimStart (c :: r) = c :: r := fun r => List.dropWhile_cons_of_neg hc
      rw [List.cons_append, hkeep, hkeep, List.cons_append]

theorem trimStart_of_solid {w : List Char} (h : ∀ c ∈ w, isBlank c = false) : trimStart w = w := by
  cases w with
  | nil => rfl
  | cons c w => exact List.dropWhile_cons_of_neg (by simp [h c])

theorem trim_of_solid {u w v : List Char} (hu : ∀ c ∈ u, isBlank c = true)
    (hw : ∀ c ∈ w, isBlank c = false) (hv : ∀ c ∈ v, isBlank c = true) : trim (u ++ w ++ v) = w := by
  rw [trim, List.append_assoc, trimStart_append_of_blank hu]
  cases w with
  | nil =>
    have hnone : trimStart v = [] := by
      rw [← List.append_nil v]
      exact trimStart_append_of_blank hv []
    rw [List.nil_append, hnone]
    rfl
  | cons c w =>
    have hback : ∀ d ∈ (c :: w).reverse, isBlank d = false := fun d hd => hw d (List.mem_reverse.mp hd)
    rw [trimStart_append_of_mem List.mem_cons_self (hw c List.mem_cons_self), trimStart_of_solid hw,
      trimEnd, List.reverse_append,
      trimStart_append_of_blank fun d hd => hv d (List.mem_reverse.mp hd),
      trimStart_of_solid hback, List.reverse_reverse]

theorem exists_trimStart (cs : List Char) :
    ∃ u, cs = u ++ trimStart cs ∧ ∀ c ∈ u, isBlank c = true := by
  refine ⟨cs.takeWhile isBlank, List.takeWhile_append_dropWhile.symm, fun c hc => ?_⟩
  exact List.all_eq_true.mp List.all_takeWhile c hc

theorem exists_trim (cs : List Char) :
    ∃ u v, cs = u ++ trim cs ++ v ∧ (∀ c ∈ u, isBlank c = true) ∧ ∀ c ∈ v, isBlank c = true := by
  obtain ⟨u, hu, hblank⟩ := exists_trimStart cs
  obtain ⟨v, hv, hblank'⟩ := exists_trimStart (trimStart cs).reverse
  refine ⟨u, v.reverse, ?_, hblank, fun c hc => hblank' c (List.mem_reverse.mp hc)⟩
  rw [trim, trimEnd, List.append_assoc, ← List.reverse_append, ← hv, List.reverse_reverse, ← hu]

theorem mem_of_mem_trim {cs : List Char} {c : Char} (h : c ∈ trim cs) : c ∈ cs := by
  obtain ⟨u, v, hcs, _⟩ := exists_trim cs
  rw [hcs]
  simp [h]

theorem mem_trim_of_solid {cs : List Char} {c : Char} (h : c ∈ cs) (hc : isBlank c = false) :
    c ∈ trim cs := by
  obtain ⟨u, v, hcs, hu, hv⟩ := exists_trim cs
  rw [hcs, List.mem_append, List.mem_append] at h
  rcases h with (h | h) | h
  · rw [hu c h] at hc
    cases hc
  · exact h
  · rw [hv c h] at hc
    cases hc

/-! ## Texts between blanks -/

theorem isBlank_of_ascii {c : Char} (hlow : 33 ≤ c.toNat) (hhigh : c.toNat ≤ 126) :
    isBlank c = false := by
  simp only [isBlank, blankRanges, List.any_cons, List.any_nil, Bool.or_eq_false_iff,
    Bool.and_eq_false_iff, decide_eq_false_iff_not, and_true]
  omega

/-- The text has such a part, and there is nothing but blanks around it. -/
def BetweenBlanks (P : List Char → Prop) (text : String) : Prop :=
  ∃ u w v, text.toList = u ++ w ++ v ∧ (∀ c ∈ u, isBlank c = true) ∧ (∀ c ∈ v, isBlank c = true) ∧
    P w

/-- The part is the same for all ways to cut the text. -/
theorem betweenBlanks_iff {P : List Char → Prop} (hP : ∀ w, P w → ∀ c ∈ w, isBlank c = false)
    {text : String} : BetweenBlanks P text ↔ P (trim text.toList) := by
  constructor
  · rintro ⟨u, w, v, htext, hu, hv, hw⟩
    rwa [htext, trim_of_solid hu (hP w hw) hv]
  · intro h
    obtain ⟨u, v, htext, hu, hv⟩ := exists_trim text.toList
    exact ⟨u, _, v, htext, hu, hv, h⟩

/-- A blank of the text has characters on both sides that are none. -/
def InnerBlank (text : String) : Prop :=
  ∃ p c q, text.toList = p ++ c :: q ∧ isBlank c = true ∧ (∃ x ∈ p, isBlank x = false) ∧
    ∃ y ∈ q, isBlank y = false

theorem InnerBlank.mem_trim {text : String} (h : InnerBlank text) :
    ∃ c ∈ trim text.toList, isBlank c = true := by
  obtain ⟨p, c, q, htext, hc, ⟨x, hx, hxs⟩, ⟨y, hy, hys⟩⟩ := h
  refine ⟨c, ?_, hc⟩
  rw [htext, trim, trimStart_append_of_mem hx hxs, trimEnd, List.reverse_append, List.reverse_cons,
    List.append_assoc, trimStart_append_of_mem (List.mem_reverse.mpr hy) hys]
  simp

end ConsoleLog.Text
