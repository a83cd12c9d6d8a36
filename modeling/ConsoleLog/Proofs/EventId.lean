import ConsoleLog.Proofs.Attributes
import ConsoleLog.Proofs.Numerals
import ConsoleLog.Proofs.Transcript

/-!
# Event ids

An event id comes from the first attribute with its key, a whole number or a text that writes one, and
what the header shows is read back as the same number. No other value gives an id, so a number outside
the words of 64 bits never wraps into one.
-/

namespace ConsoleLog

/-! ## Reading an id -/

open Text (Encodes isBlank)

theorem readEventId?_of_encodes {z : Int} {text : String} (h : Encodes z text) :
    readEventId? text = Word.ofInt? z := by
  rw [readEventId?, Text.integer?_of_writes (Text.encodes_iff.mp h), Option.bind_some]

theorem readEventId?_of_not_encodes {text : String} (h : ∀ n : Int64, ¬ Encodes n.toInt text) :
    readEventId? text = none := by
  cases hread : readEventId? text with
  | none => rfl
  | some n =>
    obtain ⟨z, hz, hn⟩ := Option.bind_eq_some_iff.mp hread
    rw [← Word.ofInt?_eq_some_iff.mp hn, Text.integer?_eq_some_iff] at hz
    exact absurd (Text.encodes_iff.mpr hz) (h n)

theorem Word.ofInt?_of_out_of_range {z : Int}
    (h : z < Int64.minValue.toInt ∨ Int64.maxValue.toInt < z) : ofInt? z = none := by
  rw [ofInt?, if_neg (by omega)]

theorem Value.intText_eq (i : Int64) : intText i = toString i.toInt := by
  rw [intText, Text.signed]
  cases i.toInt with
  | ofNat n =>
    rw [if_neg (by simp)]
    exact Nat.repr_eq_ofList_toDigits.symm
  | negSucc n =>
    have hneg : toString (Int.negSucc n) = "-" ++ (n + 1).repr := rfl
    rw [if_pos (Int.negSucc_lt_zero n), hneg, Nat.repr_eq_ofList_toDigits]
    apply String.toList_injective
    simp only [String.toList_append, String.toList_ofList]
    rfl

theorem encodes_intText (n : Int64) : Encodes n.toInt (Value.intText n) := by
  refine ⟨[], (Value.intText n).toList, [], by simp, by simp, by simp, ?_⟩
  rw [Value.intText, String.toList_ofList, Text.signed]
  by_cases h : n.toInt < 0
  · rw [if_pos h]
    exact .minus 0 (by omega)
  · rw [if_neg h]
    exact .plain 0 (by omega)

/-! ## The header -/

def Planned.lineText? : Planned → Option String
  | .line text => some text
  | _ => none

theorem Plan.lineText?_timestamp {c : Settings} {clock : Time.Clock} {r : RecordView}
    {stamp : List Planned} (h : timestamp? c clock r = some stamp) :
    ∀ p ∈ stamp, p.lineText? = none := by
  intro p hp
  obtain ⟨text, rfl⟩ := eq_timestamp_of_mem h hp
  rfl

theorem Plan.lineText?_lines (r : RecordView) : (lines r).filterMap Planned.lineText? = r.lines := by
  rw [lines, List.filterMap_map, ← lineTexts_eq]
  exact List.filterMap_some

namespace Trace

variable {σ : Type} [Sink σ] {c : Settings} {clock : Time.Clock} {r : RecordView}

/-- The lines that were asked for, the last of them perhaps in vain. -/
def lineTexts (as : List (Attempt σ)) : List String := as.filterMap fun a => a.planned.lineText?

omit [Sink σ] in
theorem lineTexts_append (as bs : List (Attempt σ)) :
    lineTexts (as ++ bs) = lineTexts as ++ lineTexts bs :=
  List.filterMap_append

theorem planned_attemptAll_starts (s : σ) (ps : List Planned) :
    (attemptAll r s ps).map (·.planned) <+: ps := by
  induction ps generalizing s with
  | nil => exact List.prefix_rfl
  | cons p ps ih =>
    rcases Sink.perform_cases s p.call with ⟨s', h⟩ | h
    · rw [attemptAll_cons_of_done r h]
      exact (List.prefix_cons_inj p).mpr (ih s')
    · rw [attemptAll_cons_of_ne_done r h]
      exact ⟨ps, rfl⟩

theorem lineTexts_attemptAll (s : σ) {ps : List Planned} (h : ∀ p ∈ ps, p.lineText? = none) :
    lineTexts (attemptAll r s ps) = [] :=
  List.filterMap_eq_nil_iff.mpr fun _ ha => h _ (planned_of_mem_attemptAll ha)

theorem lineTexts_timestamp (s : σ) : lineTexts (timestamp c clock r s).attempts = [] := by
  simp only [timestamp]
  split
  · rename_i stamp hstamp
    exact lineTexts_attemptAll s (Plan.lineText?_timestamp hstamp)
  · rfl

theorem lineTexts_tag (s : σ) : lineTexts (tag c r s).attempts = [] := by
  have hcolored : ∀ s : σ, lineTexts (attemptAll r s (Plan.colored c r)) = [] :=
    fun s => lineTexts_attemptAll s (by simp [Plan.colored, Planned.lineText?])
  have hrestoring : ∀ (s : σ) prior, lineTexts (attemptAll r s (Plan.restoring prior)) = [] :=
    fun s prior => lineTexts_attemptAll s (by simp [Plan.restoring, Planned.lineText?])
  show lineTexts (tagAttempts c r s) = []
  rw [tagAttempts, lineTexts_append, hcolored]
  split
  · rfl
  · exact hrestoring _ _

theorem lineTexts_lines_starts (s : σ) : lineTexts (lines r s).attempts <+: r.lines := by
  have hprefix := (planned_attemptAll_starts (r := r) s (Plan.lines r)).filterMap Planned.lineText?
  rwa [Plan.lineText?_lines, List.filterMap_map] at hprefix

/-- A rendering asks for the lines of its record from the first one on. -/
theorem lineTexts_record_starts (s : σ) : lineTexts (record c clock r s).attempts <+: r.lines := by
  by_cases hstamp : (timestamp c clock r s).outcome = .done
  · obtain ⟨hattempts, _⟩ := record_of_timestamp_done c hstamp
    rw [hattempts, lineTexts_append, lineTexts_timestamp, List.nil_append, tagAndLines]
    generalize (timestamp c clock r s).sink = s₁
    by_cases htag : (tag c r s₁).outcome = .done
    · rw [andThen_of_done htag, lineTexts_append, lineTexts_tag, List.nil_append]
      exact lineTexts_lines_starts _
    · rw [andThen_of_ne_done htag, lineTexts_tag]
      exact List.nil_prefix
  · rw [record_of_timestamp_ne_done c hstamp, lineTexts_timestamp]
    exact List.nil_prefix

theorem eq_headerRest_of_lineTexts {s : σ} {header : String} {rest : List String}
    (h : lineTexts (record c clock r s).attempts = header :: rest) : header = r.headerRest := by
  obtain ⟨more, hprefix⟩ : lineTexts (record c clock r s).attempts <+: r.lines :=
    lineTexts_record_starts s
  rw [h, List.cons_append] at hprefix
  exact (List.cons.inj hprefix).1

theorem lineTexts_record_of_done {s : σ} (h : (record c clock r s).outcome = .done) :
    lineTexts (record c clock r s).attempts = r.lines := by
  obtain ⟨hplan, _⟩ := planned_record c h
  obtain ⟨stamp, hstamp, hplanned⟩ := Option.map_eq_some_iff.mp hplan
  have htexts : lineTexts (record c clock r s).attempts =
      ((record c clock r s).attempts.map (·.planned)).filterMap Planned.lineText? := by
    rw [List.filterMap_map]
    rfl
  have hstampNone : stamp.filterMap Planned.lineText? = [] :=
    List.filterMap_eq_nil_iff.mpr (Plan.lineText?_timestamp hstamp)
  rw [htexts, ← hplanned, List.filterMap_append, List.filterMap_append, List.filterMap_append,
    hstampNone, Plan.lineText?_lines]
  rfl

end Trace

/-! ## Ids of records -/

namespace LogRecord

variable {r : LogRecord}

theorem eventId_of_int {n : Int64} (h : firstValue? r.attributes "event.id" = some (.int n)) :
    r.view.eventId = n := by
  show r.eventId = n
  rw [eventId, attribute?_eq, h]

theorem eventId_of_text {t : StoredText}
    (h : firstValue? r.attributes "event.id" = some (.string t)) :
    r.view.eventId = (readEventId? t.content).getD 0 := by
  show r.eventId = _
  rw [eventId, attribute?_eq, h]

theorem eventId_of_encodes {n : Int64} {t : StoredText}
    (h : firstValue? r.attributes "event.id" = some (.string t))
    (hencodes : Encodes n.toInt t.content) : r.view.eventId = n := by
  rw [eventId_of_text h, readEventId?_of_encodes hencodes, Word.ofInt?_eq_some_iff.mpr rfl,
    Option.getD_some]

theorem eventId_of_not_encodes {t : StoredText}
    (h : firstValue? r.attributes "event.id" = some (.string t))
    (hnot : ∀ n : Int64, ¬ Encodes n.toInt t.content) : r.view.eventId = 0 := by
  rw [eventId_of_text h, readEventId?_of_not_encodes hnot, Option.getD_none]

theorem eventId_of_out_of_range {z : Int} {t : StoredText}
    (h : firstValue? r.attributes "event.id" = some (.string t)) (hencodes : Encodes z t.content)
    (hrange : z < Int64.minValue.toInt ∨ Int64.maxValue.toInt < z) : r.view.eventId = 0 := by
  rw [eventId_of_text h, readEventId?_of_encodes hencodes, Word.ofInt?_of_out_of_range hrange,
    Option.getD_none]

theorem eventId_of_other (hint : ∀ n, firstValue? r.attributes "event.id" ≠ some (.int n))
    (htext : ∀ t, firstValue? r.attributes "event.id" ≠ some (.string t)) :
    r.view.eventId = 0 := by
  show r.eventId = 0
  rw [eventId, attribute?_eq]
  split
  · rename_i n h
    exact absurd h (hint n)
  · rename_i t h
    exact absurd h (htext t)
  · rfl

theorem header?_of_eventId {n : Int64} (h : r.view.eventId = n) :
    r.view.headerRest = ": " ++ r.view.category ++ "[" ++ toString n.toInt ++ "]" ∧
      Transcript.header? (r.view.shownSeverity.tag ++ r.view.headerRest).toList =
        some ⟨r.view.shownSeverity, r.view.category, n⟩ := by
  have hheader : r.view.headerRest = ": " ++ r.view.category ++ "[" ++ toString n.toInt ++ "]" := by
    rw [RecordView.headerRest, h, Value.intText_eq]
  refine ⟨hheader, ?_⟩
  rw [← Transcript.header?_line ⟨r.view.shownSeverity, r.view.category, n⟩, hheader]
  simp [Transcript.Header.line, Value.intText_eq, String.append_assoc]

end LogRecord

/-- An event id that the first attribute gives as a number or writes in a text is the record's, and
the header of every rendering that comes to it ends in that number, which is read back. A text that
writes no word of 64 bits, any other value and none at all give 0. -/
theorem LogRecord.eventId_read_back {σ : Type} [Sink σ] (c : Settings) (clock : Time.Clock) (s : σ)
    (r : LogRecord) :
    let first := firstValue? r.attributes "event.id"
    let drawing := Trace.record c clock r.view s
    (drawing.toRun = Render.render c clock r.view s ∧ Follows s drawing.attempts drawing.sink) ∧
    (∀ n : Int64,
      (first = some (.int n) ∨ ∃ t, first = some (.string t) ∧ Encodes n.toInt t.content) →
      r.view.eventId = n ∧
      (∀ header rest, Trace.lineTexts drawing.attempts = header :: rest →
        header = ": " ++ r.view.category ++ "[" ++ toString n.toInt ++ "]" ∧
        Transcript.header? (r.view.shownSeverity.tag ++ header).toList =
          some ⟨r.view.shownSeverity, r.view.category, n⟩) ∧
      (drawing.outcome = .done → Trace.lineTexts drawing.attempts ≠ []) ∧
      readEventId? (toString n.toInt) = some n) ∧
    (∀ t, first = some (.string t) →
      ((∀ n : Int64, ¬ Encodes n.toInt t.content) → r.view.eventId = 0) ∧
      (∀ z, Encodes z t.content → z < Int64.minValue.toInt ∨ Int64.maxValue.toInt < z →
        r.view.eventId = 0) ∧
      ((∀ d ∈ t.content.toList, d.isDigit = false) → r.view.eventId = 0) ∧
      (∀ d ∈ t.content.toList, isBlank d = false → d.isDigit = false → d ≠ '+' → d ≠ '-' →
        r.view.eventId = 0) ∧
      (Text.InnerBlank t.content → r.view.eventId = 0)) ∧
    ((∀ n, first ≠ some (.int n)) → (∀ t, first ≠ some (.string t)) → r.view.eventId = 0) := by
  intro first drawing
  refine ⟨⟨Trace.toRun_record c clock r.view s, Trace.follows_record c clock r.view s⟩, ?_, ?_,
    eventId_of_other⟩
  · intro n hfirst
    have hid : r.view.eventId = n := by
      rcases hfirst with hint | ⟨t, htext, hencodes⟩
      · exact eventId_of_int hint
      · exact eventId_of_encodes htext hencodes
    refine ⟨hid, ?_, ?_, ?_⟩
    · intro header rest hlines
      rw [Trace.eq_headerRest_of_lineTexts hlines]
      exact header?_of_eventId hid
    · intro hdone
      rw [Trace.lineTexts_record_of_done hdone]
      exact List.cons_ne_nil _ _
    · rw [← Value.intText_eq, readEventId?_of_encodes (encodes_intText n)]
      exact Word.ofInt?_eq_some_iff.mpr rfl
  · intro t htext
    refine ⟨eventId_of_not_encodes htext, fun z => eventId_of_out_of_range htext, ?_, ?_, ?_⟩
    · intro hdigits
      apply eventId_of_not_encodes htext
      intro n hn
      obtain ⟨d, hd, hdigit⟩ := hn.exists_digit
      rw [hdigits d hd] at hdigit
      cases hdigit
    · intro d hd hsolid hdigit hplus hminus
      apply eventId_of_not_encodes htext
      intro n hn
      rcases hn.mem hd hsolid with h | h | h
      · exact hplus h
      · exact hminus h
      · rw [h] at hdigit
        cases hdigit
    · intro hinner
      apply eventId_of_not_encodes htext
      intro n hn
      exact hn.not_innerBlank hinner

/-- The lowest id behind a zero and between blanks, another attribute before it and a second id behind.
The number above the highest id is none. -/
theorem LogRecord.eventId_read_back_lowest :
    let c : Settings := ⟨none, true, .standard⟩
    let s : Script := .new ⟨.cyan, .default⟩ [] none
    let text := "\u00a0-09223372036854775808\n"
    let r : LogRecord := ⟨"App", none, none, none, none,
      [("event", .int 1), ("event.id", .text text), ("event.id", .int 7)], none, none⟩
    let q := { r with attributes := [("event.id", .text "+9223372036854775808")] }
    Encodes Int64.minValue.toInt text ∧ r.view.eventId = Int64.minValue ∧
    Trace.lineTexts (Trace.record c ⟨.epoch, 0⟩ r.view s).attempts =
      [": App[-9223372036854775808]", "      "] ∧
    Transcript.header? "unkn: App[-9223372036854775808]".toList =
      some ⟨.unknown, "App", Int64.minValue⟩ ∧
    Encodes (Int64.maxValue.toInt + 1) "+9223372036854775808" ∧ q.view.eventId = 0 := by
  intro c s text r q
  have hencodes : Encodes Int64.minValue.toInt text := by
    refine ⟨['\u00a0'], "-09223372036854775808".toList, ['\n'], by decide,
      List.all_eq_true.mp rfl, List.all_eq_true.mp rfl, ?_⟩
    have hdigits : "-09223372036854775808".toList =
        '-' :: (List.replicate 1 '0' ++ Text.decimal Int64.minValue.toInt.natAbs) := by decide
    rw [hdigits]
    exact .minus 1 (by decide)
  have hbeyond : Encodes (Int64.maxValue.toInt + 1) "+9223372036854775808" := by
    refine ⟨[], "+9223372036854775808".toList, [], by decide, by simp, by simp, ?_⟩
    have hdigits : "+9223372036854775808".toList =
        '+' :: (List.replicate 0 '0' ++ Text.decimal (Int64.maxValue.toInt + 1).natAbs) := by
      decide
    rw [hdigits]
    exact .plus 0 (by decide)
  have hlines : Trace.lineTexts (Trace.record c ⟨.epoch, 0⟩ r.view s).attempts =
      [": App[-9223372036854775808]", "      "] := by decide
  obtain ⟨_, hid, _, _⟩ := eventId_read_back c ⟨.epoch, 0⟩ s r
  obtain ⟨hlowest, hheader, _, _⟩ := hid Int64.minValue (Or.inr ⟨⟨.owned, text⟩, rfl, hencodes⟩)
  obtain ⟨_, _, htext, _⟩ := eventId_read_back c ⟨.epoch, 0⟩ s q
  obtain ⟨_, hread⟩ := hheader _ _ hlines
  refine ⟨hencodes, hlowest, hlines, hread, hbeyond, ?_⟩
  exact (htext _ rfl).2.1 _ hbeyond (Or.inr (by decide))

end ConsoleLog
