import ConsoleLog.Proofs.Script

/-!
# Timestamps without text

A pattern is checked once, when the settings are made, and what passes may still hold the one
specifier that cannot be written. With it every record fails before its first call; without it no
record fails at its timestamp.
-/

namespace ConsoleLog

namespace Time

namespace Pattern

/-- The specifier for an offset of any form stands somewhere in the text: what comes before it is a
pattern of its own. -/
def HasAnyOffset (cs : List Char) : Prop :=
  ∃ u v, cs = u ++ '%' :: '#' :: 'z' :: v ∧ (items? u).isSome

theorem itemsFrom?_cons (r : Reading) (c : Char) (cs : List Char) :
    itemsFrom? r (c :: cs) = (step r c).bind fun s => (itemsFrom? s.1 cs).map (s.2 ++ ·) := by
  cases r <;> rfl

theorem itemsFrom?_append {r : Reading} {u : List Char} {items : List Item}
    (h : itemsFrom? r u = some items) (v : List Char) :
    itemsFrom? r (u ++ v) = (items? v).map (items ++ ·) := by
  induction u generalizing r items with
  | nil =>
    cases r <;> cases h
    simp [items?]
  | cons c u ih =>
    rw [itemsFrom?_cons] at h
    obtain ⟨s, hs, hrest⟩ := Option.bind_eq_some_iff.mp h
    obtain ⟨rest, hread, rfl⟩ := Option.map_eq_some_iff.mp hrest
    rw [List.cons_append, itemsFrom?_cons, hs, Option.bind_some, ih hread, Option.map_map]
    congr 1
    funext w
    simp

theorem anyOffset_not_mem_single {c : Char} {items : List Item} (h : single? c = some items) :
    Item.anyOffset ∉ items := by
  unfold single? at h
  split at h
  · cases h
    simp
  · unfold named? at h
    split at h <;> cases h <;>
      simp [slashDate, dashDate, hourMinute, clock, number]

theorem afterPercent_cases {c : Char} {r : Reading} {items : List Item}
    (h : afterPercent c = some (r, items)) :
    (c = '#' ∧ r = .hash ∧ items = []) ∨
    (r ≠ .percent ∧ r ≠ .hash ∧ Item.anyOffset ∉ items) := by
  unfold afterPercent at h
  split at h
  · cases h
    simp
  · cases h
    simp
  · by_cases hhash : c = '#'
    · rw [if_pos hhash] at h
      cases h
      exact Or.inl ⟨hhash, rfl, rfl⟩
    · rw [if_neg hhash] at h
      right
      split at h
      · cases h
        simp
      · split at h
        · cases h
          simp
        · obtain ⟨items', hs, he⟩ := Option.map_eq_some_iff.mp h
          cases he
          exact ⟨by simp, by simp, anyOffset_not_mem_single hs⟩

/-- The three steps through the specifier, and all others. -/
theorem step_cases {r r' : Reading} {c : Char} {items : List Item}
    (h : step r c = some (r', items)) :
    (r = .text ∧ c = '%' ∧ r' = .percent ∧ items = []) ∨
    (r = .percent ∧ c = '#' ∧ r' = .hash ∧ items = []) ∨
    (r = .hash ∧ c = 'z' ∧ r' = .text ∧ items = [.anyOffset]) ∨
    (r' ≠ .percent ∧ r' ≠ .hash ∧ Item.anyOffset ∉ items) := by
  cases r with
  | text =>
    simp only [step] at h
    by_cases hc : c = '%'
    · rw [if_pos hc] at h
      cases h
      exact Or.inl ⟨rfl, hc, rfl, rfl⟩
    · rw [if_neg hc] at h
      cases h
      simp
  | percent =>
    rcases afterPercent_cases h with ⟨hc, hr, hi⟩ | hother
    · exact Or.inr (Or.inl ⟨rfl, hc, hr, hi⟩)
    · exact Or.inr (Or.inr (Or.inr hother))
  | hash =>
    simp only [step] at h
    by_cases hc : c = 'z'
    · rw [if_pos hc] at h
      cases h
      exact Or.inr (Or.inr (Or.inl ⟨rfl, hc, rfl, rfl⟩))
    · rw [if_neg hc] at h
      cases h
  | padding p =>
    obtain ⟨f, _, he⟩ := Option.map_eq_some_iff.mp h
    cases he
    simp
  | colons n =>
    simp only [step] at h
    split at h
    · cases h
      simp
    · split at h <;> cases h
      simp
  | point =>
    simp only [step] at h
    split at h
    · cases h
      simp
    · obtain ⟨n, _, he⟩ := Option.map_eq_some_iff.mp h
      cases he
      simp
  | pointDigit n =>
    simp only [step] at h
    split at h <;> cases h
    simp
  | digit n =>
    simp only [step] at h
    split at h <;> cases h
    simp

/-- The specifier is still to come, or it has been begun and the text starts with the rest of it. -/
theorem anyOffset_of_mem {r : Reading} {cs : List Char} {items : List Item}
    (h : itemsFrom? r cs = some items) (hmem : Item.anyOffset ∈ items) :
    (∃ u v, cs = u ++ '%' :: '#' :: 'z' :: v ∧ (itemsFrom? r u).isSome) ∨
    (r = .percent ∧ ∃ v, cs = '#' :: 'z' :: v) ∨ (r = .hash ∧ ∃ v, cs = 'z' :: v) := by
  induction cs generalizing r items with
  | nil =>
    cases r <;> cases h
    cases hmem
  | cons c cs ih =>
    rw [itemsFrom?_cons] at h
    obtain ⟨⟨r', out⟩, hs, hrest⟩ := Option.bind_eq_some_iff.mp h
    obtain ⟨rest, hread, rfl⟩ := Option.map_eq_some_iff.mp hrest
    have later : (∃ u v, cs = u ++ '%' :: '#' :: 'z' :: v ∧ (itemsFrom? r' u).isSome) →
        ∃ u v, c :: cs = u ++ '%' :: '#' :: 'z' :: v ∧ (itemsFrom? r u).isSome := by
      rintro ⟨u, v, rfl, hu⟩
      refine ⟨c :: u, v, rfl, ?_⟩
      rw [itemsFrom?_cons, hs, Option.bind_some, Option.isSome_map]
      exact hu
    rcases step_cases hs with ⟨rfl, rfl, rfl, rfl⟩ | ⟨rfl, rfl, rfl, rfl⟩ | ⟨rfl, rfl, _, _⟩ |
      ⟨hpercent, hhash, hout⟩
    · -- a percent sign: the specifier starts here or later
      rcases ih hread hmem with hlater | ⟨_, v, rfl⟩ | ⟨hr, _⟩
      · exact Or.inl (later hlater)
      · exact Or.inl ⟨[], v, rfl, rfl⟩
      · cases hr
    · rcases ih hread hmem with hlater | ⟨hr, _⟩ | ⟨_, v, rfl⟩
      · exact Or.inl (later hlater)
      · cases hr
      · exact Or.inr (Or.inl ⟨rfl, v, rfl⟩)
    · exact Or.inr (Or.inr ⟨rfl, cs, rfl⟩)
    · rcases ih hread ((List.mem_append.mp hmem).resolve_left hout) with hlater | ⟨hr, _⟩ | ⟨hr, _⟩
      · exact Or.inl (later hlater)
      · exact absurd hr hpercent
      · exact absurd hr hhash

theorem anyOffset_mem_iff {cs : List Char} {items : List Item} (h : items? cs = some items) :
    Item.anyOffset ∈ items ↔ HasAnyOffset cs := by
  constructor
  · intro hmem
    rcases anyOffset_of_mem h hmem with hhere | ⟨hr, _⟩ | ⟨hr, _⟩
    · exact hhere
    · cases hr
    · cases hr
  · rintro ⟨u, v, rfl, hu⟩
    obtain ⟨before, hu⟩ := Option.isSome_iff_exists.mp hu
    have hspecifier : items? ['%', '#', 'z'] = some [.anyOffset] := rfl
    have hrest : items? ('%' :: '#' :: 'z' :: v) = (items? v).map ([.anyOffset] ++ ·) :=
      itemsFrom?_append hspecifier v
    rw [items?, itemsFrom?_append hu, hrest, Option.map_map] at h
    obtain ⟨after, _, rfl⟩ := Option.map_eq_some_iff.mp h
    simp

end Pattern

namespace Moment

theorem item?_eq_none_iff (m : Moment) (i : Item) : m.item? i = none ↔ i = .anyOffset := by
  cases i <;> simp [item?]

theorem items?_eq_none_iff (m : Moment) (is : List Item) :
    m.items? is = none ↔ Item.anyOffset ∈ is := by
  induction is with
  | nil => simp [items?]
  | cons i is ih =>
    rw [items?, List.mem_cons, ← ih]
    cases h : m.item? i with
    | none => simp [((item?_eq_none_iff m i).mp h).symm]
    | some cs =>
      have hi : Item.anyOffset ≠ i := by
        intro hi
        rw [(item?_eq_none_iff m i).mpr hi.symm] at h
        cases h
      simp [hi]

end Moment

/-- The moment has no say in whether a pattern can be written. -/
theorem Format.render?_eq_none_iff (f : Format) (m : Moment) :
    f.render? m = none ↔ Pattern.HasAnyOffset f.text.toList := by
  rw [render?, Option.map_eq_none_iff, Moment.items?_eq_none_iff]
  exact Pattern.anyOffset_mem_iff f.items_eq

end Time

/-! ## Records -/

theorem Time.Pattern.nonempty?_eq_some_and_hasAnyOffset (format : Option String) (text : String) :
    nonempty? format = some text ∧ HasAnyOffset text.toList ↔
      format = some text ∧ HasAnyOffset text.toList := by
  constructor
  · rintro ⟨h, hany⟩
    exact ⟨(Option.filter_eq_some_iff.mp h).1, hany⟩
  · rintro ⟨rfl, hany⟩
    refine ⟨Option.filter_eq_some_iff.mpr ⟨rfl, ?_⟩, hany⟩
    obtain ⟨u, v, htext, _⟩ := hany
    have hne : text ≠ "" := by
      rintro rfl
      simp at htext
    simp [hne]

theorem Settings.formatText_ofFormat {format : Option String} {utc : Bool} {policy : ColorPolicy}
    {c : Settings} (built : ofFormat format utc policy = .ok c) :
    c.formatText = nonempty? format := by
  unfold ofFormat at built
  split at built
  · rename_i h
    cases built
    exact h.symm
  · rename_i text h
    rw [h]
    split at built
    · rename_i f hf
      cases built
      unfold Time.Format.ofText? at hf
      split at hf <;> cases hf
      rfl
    · cases built

theorem Plan.timestamp?_eq_none_iff (c : Settings) (clock : Time.Clock) (r : RecordView) :
    timestamp? c clock r = none ↔
      ∃ f, c.format = some f ∧ Time.Pattern.HasAnyOffset f.text.toList := by
  unfold timestamp?
  cases c.format with
  | none => simp
  | some f =>
    simp only [Option.map_eq_none_iff, timestampText?, Time.Format.render?_eq_none_iff]
    constructor
    · intro h
      exact ⟨f, rfl, h⟩
    · rintro ⟨f', hf, h⟩
      cases hf
      exact h

section
variable {σ : Type} [Sink σ]

namespace Render

theorem map_sink_ne_timestamp (o : Outcome String) (text : String) :
    o.map RenderError.sink ≠ .failed (.timestamp text) := by
  cases o <;> simp [Outcome.map]

theorem outcome_ne_timestamp {c : Settings} {clock : Time.Clock} {r : RecordView}
    {stamp : List Planned} (h : Plan.timestamp? c clock r = some stamp) (s : σ) (text : String) :
    (render c clock r s).outcome ≠ .failed (.timestamp text) := by
  rw [← Trace.toRun_record]
  by_cases ht : (Trace.timestamp c clock r s).outcome = .done
  · obtain ⟨_, _, hout⟩ := Trace.record_of_timestamp_done c ht
    rw [hout]
    by_cases htag : (Trace.tag c r (Trace.timestamp c clock r s).sink).outcome = .done
    · rw [Trace.tagAndLines, Trace.andThen_of_done htag]
      exact map_sink_ne_timestamp _ text
    · rw [Trace.tagAndLines, Trace.andThen_of_ne_done htag]
      exact map_sink_ne_timestamp _ text
  · rw [Trace.record_of_timestamp_ne_done c ht]
    have hout : (Trace.timestamp c clock r s).outcome = _ := (drawTimestamp_of_some h s).1
    rw [hout]
    exact map_sink_ne_timestamp _ text

theorem outcome_eq_timestamp_iff (c : Settings) (clock : Time.Clock) (r : RecordView) (s : σ)
    (text : String) :
    (render c clock r s).outcome = .failed (.timestamp text) ↔
      c.formatText = some text ∧ Time.Pattern.HasAnyOffset text.toList := by
  have hnone := Plan.timestamp?_eq_none_iff c clock r
  unfold Settings.formatText
  cases h : Plan.timestamp? c clock r with
  | some stamp =>
    rw [h] at hnone
    constructor
    · intro hout
      exact absurd hout (outcome_ne_timestamp h s text)
    · rintro ⟨htext, hany⟩
      obtain ⟨f, hf, rfl⟩ := Option.map_eq_some_iff.mp htext
      exact absurd (hnone.mpr ⟨f, hf, hany⟩) (by simp)
  | none =>
    obtain ⟨f, hf, hany⟩ := hnone.mp h
    rw [(outcome_of_unformatted h hf s).1, hf]
    simp only [Outcome.failed.injEq, RenderError.timestamp.injEq, Option.map_some, Option.some.injEq]
    constructor
    · rintro rfl
      exact ⟨rfl, hany⟩
    · exact And.left

end Render

/-! ## Batches -/

theorem renderFrom_cons (c : Settings) (clock : Nat → Time.Clock) (i : Nat) (l : Lock σ)
    (r : RecordView) (rs : List RecordView) :
    (renderFrom c clock i l (r :: rs)).outcome =
      match (Render.render c (clock i) r l.value).outcome with
      | .done =>
        let l' := l.release (Render.render c (clock i) r l.value).sink false
        (renderFrom c clock (i + 1) l' rs).outcome
      | .failed e => .failed ⟨i, e⟩
      | .aborted m => .aborted m := by
  rw [renderFrom, Lock.hold_eq, Lock.after, Run.andThen, Run.mapError]
  cases (Render.render c (clock i) r l.value).outcome <;> rfl

theorem renderFrom_ne_timestamp {c : Settings} {text : String} (clock : Nat → Time.Clock)
    (h : ¬ (c.formatText = some text ∧ Time.Pattern.HasAnyOffset text.toList)) (i j : Nat)
    (l : Lock σ) (rs : List RecordView) :
    (renderFrom c clock i l rs).outcome ≠ .failed ⟨j, .timestamp text⟩ := by
  induction rs generalizing i l with
  | nil => simp [renderFrom, Run.idle]
  | cons r rs ih =>
    rw [renderFrom_cons]
    cases hr : (Render.render c (clock i) r l.value).outcome with
    | done => exact ih _ _
    | aborted m => simp
    | failed e =>
      intro he
      cases he
      exact h ((Render.outcome_eq_timestamp_iff c _ r l.value text).mp hr)

theorem renderBatch_eq_timestamp_iff (c : Settings) (clock : Nat → Time.Clock) (l : Lock σ)
    (rs : List RecordView) (j : Nat) (text : String) :
    (renderBatch c clock l rs).outcome = .failed ⟨j, .timestamp text⟩ ↔
      (c.formatText = some text ∧ Time.Pattern.HasAnyOffset text.toList) ∧ j = 0 ∧ rs ≠ [] := by
  constructor
  · intro h
    by_cases hany : c.formatText = some text ∧ Time.Pattern.HasAnyOffset text.toList
    · refine ⟨hany, ?_⟩
      cases rs with
      | nil => cases h
      | cons r rs =>
        have hr := (Render.outcome_eq_timestamp_iff c (clock 0) r l.value text).mpr hany
        rw [renderBatch, renderFrom_cons, hr] at h
        cases h
        simp
    · exact absurd h (renderFrom_ne_timestamp clock hany 0 j l rs)
  · rintro ⟨hany, rfl, hne⟩
    cases rs with
    | nil => exact absurd rfl hne
    | cons r rs =>
      rw [renderBatch, renderFrom_cons,
        (Render.outcome_eq_timestamp_iff c (clock 0) r l.value text).mpr hany]

/-- With settings that were accepted, a timestamp fails exactly if the format holds the offset
specifier that cannot be written, and then at the first record. All other failures are the
sink's. -/
theorem renderBatch_fails_on_timestamp_iff {format : Option String} {utc : Bool}
    {policy : ColorPolicy} {c : Settings} (built : Settings.ofFormat format utc policy = .ok c) :
    (∀ clock r (s : σ) text,
      (Render.render c clock r s).outcome = .failed (.timestamp text) ↔
        format = some text ∧ Time.Pattern.HasAnyOffset text.toList) ∧
    (∀ clock (l : Lock σ) rs j text,
      (renderBatch c clock l rs).outcome = .failed ⟨j, .timestamp text⟩ ↔
        (format = some text ∧ Time.Pattern.HasAnyOffset text.toList) ∧ j = 0 ∧ rs ≠ []) ∧
    ((∀ text, format = some text → ¬ Time.Pattern.HasAnyOffset text.toList) →
      (∀ clock r (s : σ) e, (Render.render c clock r s).outcome = .failed e → ∃ m, e = .sink m) ∧
      ∀ clock (l : Lock σ) rs e, (renderBatch c clock l rs).outcome = .failed e →
        ∃ m, e.source = .sink m) := by
  have hformat : ∀ text, (c.formatText = some text ∧ Time.Pattern.HasAnyOffset text.toList ↔
      format = some text ∧ Time.Pattern.HasAnyOffset text.toList) := by
    intro text
    rw [Settings.formatText_ofFormat built]
    exact Time.Pattern.nonempty?_eq_some_and_hasAnyOffset format text
  have hrender : ∀ clock r (s : σ) text,
      (Render.render c clock r s).outcome = .failed (.timestamp text) ↔
        format = some text ∧ Time.Pattern.HasAnyOffset text.toList := by
    intro clock r s text
    rw [Render.outcome_eq_timestamp_iff, hformat]
  have hbatch : ∀ clock (l : Lock σ) rs j text,
      (renderBatch c clock l rs).outcome = .failed ⟨j, .timestamp text⟩ ↔
        (format = some text ∧ Time.Pattern.HasAnyOffset text.toList) ∧ j = 0 ∧ rs ≠ [] := by
    intro clock l rs j text
    rw [renderBatch_eq_timestamp_iff, hformat]
  refine ⟨hrender, hbatch, fun hnot => ⟨?_, ?_⟩⟩
  · intro clock r s e he
    cases e with
    | sink m => exact ⟨m, rfl⟩
    | timestamp text =>
      obtain ⟨htext, hany⟩ := (hrender clock r s text).mp he
      exact absurd hany (hnot text htext)
  · intro clock l rs e he
    obtain ⟨j, e⟩ := e
    cases e with
    | sink m => exact ⟨m, rfl⟩
    | timestamp text =>
      obtain ⟨⟨htext, hany⟩, _⟩ := (hbatch clock l rs j text).mp he
      exact absurd hany (hnot text htext)

end

/-- The format passes, and the first of two records fails by it. -/
theorem renderBatch_fails_on_timestamp_any_offset :
    ∃ c, Settings.ofFormat (some "%H %#z") true .standard = .ok c ∧
      ∀ clock r (l : Lock Script), (renderBatch c clock l [r, r]).outcome =
        .failed ⟨0, .timestamp "%H %#z"⟩ := by
  have hitems : Time.Pattern.items? "%H %#z".toList =
      some [.number .hour .zeros, .literal ' ', .anyOffset] := by decide
  have built : Settings.ofFormat (some "%H %#z") true .standard =
      .ok ⟨some ⟨"%H %#z", _, hitems⟩, true, .standard⟩ := rfl
  refine ⟨_, built, fun clock r l => ?_⟩
  refine ((renderBatch_fails_on_timestamp_iff built).2.1 clock l [r, r] 0 _).mpr ⟨⟨rfl, ?_⟩, rfl, by simp⟩
  exact ⟨['%', 'H', ' '], [], by decide, by decide⟩

/-- That a format passes is not enough of a promise. -/
theorem accepted_format_fails_on_timestamp :
    ¬ ∀ (format : Option String) (utc : Bool) (policy : ColorPolicy) (c : Settings),
      Settings.ofFormat format utc policy = .ok c →
      ∀ clock r (s : Script) text, (Render.render c clock r s).outcome ≠ .failed (.timestamp text) := by
  intro h
  have hitems : Time.Pattern.items? "%#z".toList = some [.anyOffset] := by decide
  have built : Settings.ofFormat (some "%#z") true .standard =
      .ok ⟨some ⟨"%#z", _, hitems⟩, true, .standard⟩ := rfl
  exact h _ _ _ _ built ⟨.epoch, 0⟩ ⟨.level .information, "C", 1, some "m", none, none, none⟩
    (.new ⟨.default, .default⟩ [] none) "%#z" rfl

end ConsoleLog
