import ConsoleLog.Text.Lines

/-!
# Line endings of a transcript

A carriage return with a line feed behind it is one ending, and each of the two alone is one. Cutting
at single characters cuts such a pair twice, but the piece between is empty and is dropped. So the
lines of a transcript do not depend on the style of its endings, and an ending between two texts
keeps their lines apart (`lines_append_ending`).
-/

namespace ConsoleLog.Text

inductive Ending where
  | cr | lf | crlf
  deriving DecidableEq

def Ending.chars : Ending → List Char
  | .cr => ['\r']
  | .lf => ['\n']
  | .crlf => ['\r', '\n']

def Ending.text (e : Ending) : String := String.ofList e.chars

def Unbroken (cs : List Char) : Prop := ∀ c ∈ cs, c ≠ '\r' ∧ c ≠ '\n'

/-- The pieces of a text between its endings. A carriage return ends no piece on its own if a line feed
stands behind it. -/
inductive Cut : List Char → List (List Char) → Prop
  | last {p : List Char} (unbroken : Unbroken p) : Cut p [p]
  | ended {p r : List Char} {ps : List (List Char)} (e : Ending) (unbroken : Unbroken p)
      (whole : e = .cr → r.head? ≠ some '\n') (rest : Cut r ps) : Cut (p ++ e.chars ++ r) (p :: ps)

/-! ## Every text has its pieces -/

theorem unbroken_nil : Unbroken [] := by simp [Unbroken]

theorem Cut.cons {c : Char} {cs : List Char} {ps : List (List Char)} (h : Cut cs ps)
    (hpair : c = '\r' → cs.head? ≠ some '\n') : ∃ qs, Cut (c :: cs) qs := by
  by_cases hcr : c = '\r'
  · subst hcr
    exact ⟨_, .ended (p := []) .cr unbroken_nil (fun _ => hpair rfl) h⟩
  · by_cases hlf : c = '\n'
    · subst hlf
      exact ⟨_, .ended (p := []) .lf unbroken_nil (by simp) h⟩
    · cases h with
      | last hp => exact ⟨_, .last (List.forall_mem_cons.mpr ⟨⟨hcr, hlf⟩, hp⟩)⟩
      | ended e hp whole rest =>
        exact ⟨_, .ended e (List.forall_mem_cons.mpr ⟨⟨hcr, hlf⟩, hp⟩) whole rest⟩

theorem exists_cut : ∀ cs, ∃ ps, Cut cs ps
  | [] => ⟨_, .last unbroken_nil⟩
  | [c] => by
    obtain ⟨ps, h⟩ := exists_cut []
    exact h.cons (by simp)
  | c :: d :: cs => by
    by_cases hpair : c = '\r' ∧ d = '\n'
    · obtain ⟨rfl, rfl⟩ := hpair
      obtain ⟨ps, h⟩ := exists_cut cs
      exact ⟨_, .ended (p := []) .crlf unbroken_nil (by simp) h⟩
    · obtain ⟨ps, h⟩ := exists_cut (d :: cs)
      apply h.cons
      intro hc hd
      exact hpair ⟨hc, Option.some.inj hd⟩

/-! ## Cutting at single characters -/

theorem isBreak_eq_false_iff {c : Char} : isBreak c = false ↔ c ≠ '\r' ∧ c ≠ '\n' := by
  simp [isBreak]

theorem pieces_eq_splitOnP (cs : List Char) : pieces cs = cs.splitOnP isBreak := by
  induction cs with
  | nil => rfl
  | cons c cs ih =>
    rw [pieces, List.splitOnP_cons_eq_if_modifyHead, ih]
    by_cases hc : isBreak c = true
    · rw [if_pos hc, if_pos hc]
    · obtain ⟨p, ps, hps⟩ := List.exists_cons_of_ne_nil (List.splitOnP_ne_nil isBreak cs)
      rw [if_neg hc, if_neg hc, hps]
      rfl

theorem lines_append_break {b : Char} (hb : isBreak b = true) (u v : List Char) :
    lines (u ++ b :: v) = lines u ++ lines v := by
  unfold lines
  simp only [pieces_eq_splitOnP]
  rw [List.splitOnP_append_cons u v hb, List.filter_append]

theorem lines_append_ending (e : Ending) (u v : List Char) :
    lines (u ++ e.chars ++ v) = lines u ++ lines v := by
  have hcr : lines (u ++ '\r' :: v) = lines u ++ lines v := lines_append_break rfl u v
  have hlf : lines (u ++ '\n' :: v) = lines u ++ lines v := lines_append_break rfl u v
  cases e with
  | cr => simpa [Ending.chars] using hcr
  | lf => simpa [Ending.chars] using hlf
  | crlf =>
    -- the piece between the two characters is empty
    have hpair : lines (u ++ '\r' :: ([] ++ '\n' :: v)) = lines u ++ ([] ++ lines v) := by
      rw [lines_append_break rfl, lines_append_break rfl]
      rfl
    simpa [Ending.chars] using hpair

theorem lines_of_unbroken {p : List Char} (h : Unbroken p) : lines p = [p].filter (· ≠ []) := by
  have hbreaks : ∀ c ∈ p, isBreak c = false := fun c hc => isBreak_eq_false_iff.mpr (h c hc)
  unfold lines
  rw [pieces_eq_splitOnP, List.splitOnP_eq_singleton hbreaks]
  cases p <;> rfl

theorem lines_of_cut {cs : List Char} {ps : List (List Char)} (h : Cut cs ps) :
    lines cs = ps.filter (· ≠ []) := by
  induction h with
  | last hp => exact lines_of_unbroken hp
  | ended e hp _ _ ih =>
    rw [lines_append_ending, lines_of_unbroken hp, ih, ← List.filter_append]
    rfl

/-! ## The lines -/

theorem unbroken_of_mem_lines {cs l : List Char} (h : l ∈ lines cs) : l ≠ [] ∧ Unbroken l := by
  obtain ⟨hpiece, hne⟩ := List.mem_filter.mp h
  constructor
  · simpa using hne
  · intro c hc
    exact isBreak_eq_false_iff.mp (isBreak_eq_false_of_mem_pieces hpiece hc)

theorem flatten_of_cut {cs : List Char} {ps : List (List Char)} (h : Cut cs ps) :
    ps.flatten = cs.filter fun c => c ≠ '\r' ∧ c ≠ '\n' := by
  have hkept : ∀ {p : List Char}, Unbroken p → (p.filter fun c => c ≠ '\r' ∧ c ≠ '\n') = p := by
    intro p hp
    exact List.filter_eq_self.mpr fun c hc => decide_eq_true (hp c hc)
  induction h with
  | last hp =>
    rw [hkept hp]
    simp
  | ended e hp _ _ ih =>
    have hending : (e.chars.filter fun c => c ≠ '\r' ∧ c ≠ '\n') = [] := by cases e <;> rfl
    rw [List.flatten_cons, ih, List.filter_append, List.filter_append, hkept hp, hending,
      List.append_nil]

theorem flatten_lines (cs : List Char) :
    (lines cs).flatten = cs.filter fun c => c ≠ '\r' ∧ c ≠ '\n' := by
  obtain ⟨ps, h⟩ := exists_cut cs
  rw [lines_of_cut h, List.flatten_filter_ne_nil, flatten_of_cut h]

theorem lines_intercalate (e : Ending) {ls : List (List Char)} (h : ∀ l ∈ ls, l ≠ [] ∧ Unbroken l) :
    lines (e.chars.intercalate ls) = ls := by
  induction ls with
  | nil => rfl
  | cons l ls ih =>
    obtain ⟨⟨hne, hl⟩, hrest⟩ := List.forall_mem_cons.mp h
    have hline : lines l = [l] := by
      rw [lines_of_unbroken hl]
      simp [hne]
    cases ls with
    | nil => simpa using hline
    | cons m ls =>
      rw [List.intercalate_cons_cons, lines_append_ending, hline, ih hrest]
      rfl

/-! ## Transcripts -/

theorem map_toList_transcriptLines (t : String) :
    (transcriptLines t).map String.toList = lines t.toList := by
  simp [transcriptLines, Function.comp_def]

theorem join_transcriptLines (t : String) :
    (String.join (transcriptLines t)).toList = t.toList.filter fun c => c ≠ '\r' ∧ c ≠ '\n' := by
  rw [String.toList_join, ← flatten_lines, ← map_toList_transcriptLines]
  rfl

theorem join_flatMap_transcriptLines (texts : List String) :
    (String.join (texts.flatMap transcriptLines)).toList =
      texts.flatMap fun t => t.toList.filter fun c => c ≠ '\r' ∧ c ≠ '\n' := by
  induction texts with
  | nil => rfl
  | cons t texts ih =>
    rw [List.flatMap_cons, List.flatMap_cons, ← ih, ← join_transcriptLines]
    simp

theorem ne_empty_of_mem_transcriptLines {t line : String} (h : line ∈ transcriptLines t) :
    line ≠ "" ∧ '\r' ∉ line.toList ∧ '\n' ∉ line.toList := by
  obtain ⟨l, hl, rfl⟩ := List.mem_map.mp h
  obtain ⟨hne, hbreaks⟩ := unbroken_of_mem_lines hl
  rw [String.toList_ofList]
  refine ⟨?_, fun hmem => (hbreaks _ hmem).1 rfl, fun hmem => (hbreaks _ hmem).2 rfl⟩
  simpa using hne

theorem transcriptLines_append_ending (e : Ending) (u v : String) :
    transcriptLines (u ++ e.text ++ v) = transcriptLines u ++ transcriptLines v := by
  have htext : (u ++ e.text ++ v).toList = u.toList ++ e.chars ++ v.toList := by
    simp [Ending.text]
  rw [transcriptLines, htext, lines_append_ending, List.map_append]
  rfl

/-- The lines of a transcript are the pieces between its endings, the empty ones left out. All that is
lost is the characters of endings, whose style makes no difference. -/
theorem transcriptLines_cut_at_endings (t : String) :
    (∃ ps, Cut t.toList ps) ∧
    (∀ ps, Cut t.toList ps → transcriptLines t = (ps.filter (· ≠ [])).map String.ofList) ∧
    (∀ line ∈ transcriptLines t, line ≠ "" ∧ '\r' ∉ line.toList ∧ '\n' ∉ line.toList) ∧
    (String.join (transcriptLines t)).toList = t.toList.filter (fun c => c ≠ '\r' ∧ c ≠ '\n') ∧
    (∀ u v (e e' : Ending), t = u ++ e.text ++ v →
      transcriptLines (u ++ e'.text ++ v) = transcriptLines t) ∧
    ∀ e : Ending, transcriptLines (e.text.intercalate (transcriptLines t)) = transcriptLines t := by
  refine ⟨exists_cut t.toList, ?_, ?_, ?_, ?_, ?_⟩
  · intro ps h
    rw [transcriptLines, lines_of_cut h]
  · intro line hline
    exact ne_empty_of_mem_transcriptLines hline
  · exact join_transcriptLines t
  · intro u v e e' h
    rw [h, transcriptLines_append_ending, transcriptLines_append_ending]
  · intro e
    have hsame : (e.text.intercalate (transcriptLines t)).toList =
        e.chars.intercalate (lines t.toList) := by
      rw [String.toList_intercalate, map_toList_transcriptLines, Ending.text, String.toList_ofList]
    rw [transcriptLines, hsame, lines_intercalate e fun l hl => unbroken_of_mem_lines hl]
    rfl

theorem transcriptLines_cut_at_endings_mixed :
    let t := "\r\r\na\n\rb"
    Cut t.toList [[], [], ['a'], [], ['b']] ∧ t = "\r\r\na" ++ Ending.lf.text ++ "\rb" ∧
    transcriptLines t = ["a", "b"] ∧ ("a" ≠ "" ∧ '\r' ∉ "a".toList ∧ '\n' ∉ "a".toList) ∧
    transcriptLines ("\r\r\na" ++ Ending.crlf.text ++ "\rb") = ["a", "b"] := by
  intro t
  have htext : t.toList = ['\r', '\r', '\n', 'a', '\n', '\r', 'b'] := by decide
  have hcut : Cut t.toList [[], [], ['a'], [], ['b']] := by
    rw [htext]
    refine .ended (p := []) (r := ['\r', '\n', 'a', '\n', '\r', 'b']) .cr unbroken_nil (by simp) ?_
    refine .ended (p := []) (r := ['a', '\n', '\r', 'b']) .crlf unbroken_nil (by simp) ?_
    refine .ended (p := ['a']) (r := ['\r', 'b']) .lf (by simp [Unbroken]) (by simp) ?_
    refine .ended (p := []) (r := ['b']) .cr unbroken_nil (by simp) ?_
    exact .last (by simp [Unbroken])
  have hlf : t = "\r\r\na" ++ Ending.lf.text ++ "\rb" := by decide
  obtain ⟨_, hlines, hfree, _, hrestyled, _⟩ := transcriptLines_cut_at_endings t
  have ht : transcriptLines t = ["a", "b"] := hlines _ hcut
  refine ⟨hcut, hlf, ht, hfree "a" ?_, ?_⟩
  · rw [ht]
    exact List.mem_cons_self
  · rw [hrestyled _ _ .lf .crlf hlf, ht]

end ConsoleLog.Text
