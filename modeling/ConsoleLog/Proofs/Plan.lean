import ConsoleLog.Proofs.Colors
import ConsoleLog.Render

/-!
# The plan of a record

The calls that a record is drawn with when none fails, each with what it is for: the timestamp, the
colors of the severity, the tag, the colors from before, and the lines.
-/

namespace ConsoleLog

inductive Planned where
  | timestamp (text : String)
  | foreground (c : Color)
  | background (c : Color)
  | tag (severity : Severity)
  | priorForeground (c : Color)
  | priorBackground (c : Color)
  | line (text : String)
  deriving DecidableEq

namespace Planned

def call : Planned → Call
  | .timestamp text => .text text
  | .foreground c => .foreground c
  | .background c => .background c
  | .tag severity => .text severity.tag
  | .priorForeground c => .foreground c
  | .priorBackground c => .background c
  | .line text => .line text

/-- The colors of the severity and the tag: after them the colors from before are set again. -/
def isColored : Planned → Bool
  | .foreground _ | .background _ | .tag _ => true
  | _ => false

def restores : Planned → Bool
  | .priorForeground _ | .priorBackground _ => true
  | _ => false

theorem restores_of_isColored {p : Planned} (h : p.isColored = true) : p.restores = false := by
  cases p <;> first | rfl | cases h

theorem isColored_of_restores {p : Planned} (h : p.restores = true) : p.isColored = false := by
  cases p <;> first | rfl | cases h

theorem written?_call_of_restores {p : Planned} (h : p.restores = true) : p.call.written? = none := by
  cases p <;> first | rfl | cases h

end Planned

namespace Plan

def calls (ps : List Planned) : List Call := ps.map (·.call)

/-- What a record's timestamp reads, and nothing if the format has an item without text. -/
def timestampText? (c : Settings) (clock : Time.Clock) (r : RecordView) (f : Time.Format) :
    Option String :=
  f.render? (Render.moment (c.zone clock) clock (r.timestamp.getD clock.now)).1

def timestamp? (c : Settings) (clock : Time.Clock) (r : RecordView) : Option (List Planned) :=
  match c.format with
  | none => some []
  | some f => (timestampText? c clock r f).map fun text => [.timestamp text]

def tagColors (c : Settings) (r : RecordView) : ColorPair := c.policy.colorsFor r.shownSeverity

def colored (c : Settings) (r : RecordView) : List Planned :=
  [.foreground (tagColors c r).foreground, .background (tagColors c r).background,
    .tag r.shownSeverity]

def restoring (p : ColorPair) : List Planned :=
  [.priorForeground p.foreground, .priorBackground p.background]

def messageText (r : RecordView) : String :=
  match r.formatted with
  | none => r.body.getD ""
  | some m => if m = "" then r.body.getD "" else m

def lineTexts (r : RecordView) : List String :=
  [": " ++ r.category ++ "[" ++ Value.intText r.eventId ++ "]", "      " ++ messageText r] ++
    ((r.exception.map Text.transcriptLines).getD []).map ("      " ++ ·)

def lines (r : RecordView) : List Planned := (lineTexts r).map .line

/-- All calls of a record on a sink that shows the colors `prior`. -/
def ofRecord? (c : Settings) (clock : Time.Clock) (r : RecordView) (prior : ColorPair) :
    Option (List Planned) :=
  (timestamp? c clock r).map fun stamp =>
    stamp ++ colored c r ++ restoring prior ++ lines r

theorem ofRecord?_of_timestamp {c : Settings} {clock : Time.Clock} {r : RecordView}
    {stamp : List Planned} (h : timestamp? c clock r = some stamp) (prior : ColorPair) :
    ofRecord? c clock r prior = some (stamp ++ colored c r ++ restoring prior ++ lines r) := by
  rw [ofRecord?, h]
  rfl

theorem calls_append (ps qs : List Planned) : calls (ps ++ qs) = calls ps ++ calls qs := by
  simp [calls]

theorem message_eq (r : RecordView) : r.message = messageText r := by
  unfold RecordView.message messageText nonempty?
  cases r.formatted with
  | none => rfl
  | some m =>
    by_cases hm : m = ""
    · simp [Option.filter, hm]
    · simp [Option.filter, hm]

theorem lineTexts_eq (r : RecordView) : lineTexts r = r.lines := by
  unfold lineTexts RecordView.lines RecordView.exceptionLines
  rw [message_eq]
  cases r.exception with
  | none => rfl
  | some text => rfl

theorem calls_lines (r : RecordView) : calls (lines r) = r.lines.map .line := by
  rw [← lineTexts_eq, calls, lines, List.map_map]
  rfl

theorem calls_restoring (p : ColorPair) : calls (restoring p) = Render.setColors p := rfl

theorem calls_colored (c : Settings) (r : RecordView) :
    calls (colored c r) = Render.setColors (tagColors c r) ++ [.text r.shownSeverity.tag] := rfl

theorem header_mem_calls (r : RecordView) (ps : List Planned) :
    .line r.headerRest ∈ calls (ps ++ lines r) := by
  rw [calls_append, calls_lines]
  exact List.mem_append_right _ List.mem_cons_self

theorem isColored_of_mem {c : Settings} {r : RecordView} {p : Planned} (h : p ∈ colored c r) :
    p.isColored = true := by
  simp only [colored, List.mem_cons, List.not_mem_nil, or_false] at h
  rcases h with rfl | rfl | rfl <;> rfl

theorem restores_of_mem {q : ColorPair} {p : Planned} (h : p ∈ restoring q) : p.restores = true := by
  simp only [restoring, List.mem_cons, List.not_mem_nil, or_false] at h
  rcases h with rfl | rfl <;> rfl

theorem eq_timestamp_of_mem {c : Settings} {clock : Time.Clock} {r : RecordView}
    {stamp : List Planned} {p : Planned} (h : timestamp? c clock r = some stamp) (hp : p ∈ stamp) :
    ∃ text, p = .timestamp text := by
  unfold timestamp? at h
  split at h
  · cases h
    cases hp
  · obtain ⟨text, _, rfl⟩ := Option.map_eq_some_iff.mp h
    exact ⟨text, List.mem_singleton.mp hp⟩

theorem eq_line_of_mem {r : RecordView} {p : Planned} (h : p ∈ lines r) : ∃ text, p = .line text := by
  obtain ⟨text, _, ht⟩ := List.mem_map.mp h
  exact ⟨text, ht.symm⟩

theorem split_append {ps qs pre post : List Planned} {p : Planned} (h : ps ++ qs = pre ++ p :: post) :
    (∃ rest, ps = pre ++ p :: rest) ∨ ∃ pre', pre = ps ++ pre' ∧ qs = pre' ++ p :: post := by
  rcases List.append_eq_append_iff.mp h with ⟨pre', hpre, hqs⟩ | ⟨rest, hps, hrest⟩
  · exact Or.inr ⟨pre', hpre, hqs⟩
  · cases rest with
    | nil =>
      refine Or.inr ⟨[], ?_, hrest.symm⟩
      rw [hps]
      simp
    | cons q rest =>
      obtain ⟨rfl, _⟩ := List.cons.inj hrest
      exact Or.inl ⟨rest, hps⟩

theorem colored_eq_append {c : Settings} {r : RecordView} {pre post : List Planned} {x : Planned}
    (h : colored c r = pre ++ x :: post) :
    (pre = [] ∧ x = .foreground (tagColors c r).foreground) ∨
    (pre = [.foreground (tagColors c r).foreground] ∧ x = .background (tagColors c r).background) ∨
    (pre = [.foreground (tagColors c r).foreground, .background (tagColors c r).background] ∧
      x = .tag r.shownSeverity) := by
  match pre with
  | [] => simp_all [colored]
  | [a] => simp_all [colored]
  | [a, b] => simp_all [colored]
  | a :: b :: d :: pre => simp [colored] at h

theorem restoring_eq_append {p : ColorPair} {pre post : List Planned} {x : Planned}
    (h : restoring p = pre ++ x :: post) :
    (pre = [] ∧ x = .priorForeground p.foreground) ∨
    (pre = [.priorForeground p.foreground] ∧ x = .priorBackground p.background) := by
  match pre with
  | [] => simp_all [restoring]
  | [a] => simp_all [restoring]
  | a :: b :: pre => simp [restoring] at h

/-! ## What the planned calls do to colors -/

theorem recolorAll_restoring (p q : ColorPair) : Call.recolorAll (calls (restoring p)) q = p := rfl

theorem written_lines (r : RecordView) : ∀ c ∈ calls (lines r), c.written? ≠ none := by
  intro c hc
  obtain ⟨p, hp, rfl⟩ := List.mem_map.mp hc
  obtain ⟨text, rfl⟩ := eq_line_of_mem hp
  simp [Planned.call, Call.written?]

theorem written_timestamp {c : Settings} {clock : Time.Clock} {r : RecordView} {stamp : List Planned}
    (h : timestamp? c clock r = some stamp) : ∀ d ∈ calls stamp, d.written? ≠ none := by
  intro d hd
  obtain ⟨p, hp, rfl⟩ := List.mem_map.mp hd
  obtain ⟨text, rfl⟩ := eq_timestamp_of_mem h hp
  simp [Planned.call, Call.written?]

end Plan

/-! ## The timestamp stage -/

namespace Render

variable {σ : Type} [Sink σ]

theorem performAll_singleton (s : σ) (c : Call) : Sink.performAll s [c] = Sink.perform s c := by
  rcases Sink.perform_cases s c with ⟨s', h⟩ | h
  · rw [Sink.performAll_cons_of_done h, h]
    rfl
  · exact Sink.performAll_cons_of_ne_done h []

theorem drawTimestamp_of_none {c : Settings} {clock : Time.Clock} {r : RecordView}
    (h : Plan.timestamp? c clock r = none) (s : σ) :
    ∃ f, c.format = some f ∧ (drawTimestamp c clock r s).outcome = .failed (.timestamp f.text) ∧
      (drawTimestamp c clock r s).sink = s := by
  unfold Plan.timestamp? at h
  unfold drawTimestamp
  cases hf : c.format with
  | none =>
    rw [hf] at h
    cases h
  | some f =>
    rw [hf] at h
    have htext : f.render? (moment (c.zone clock) clock (r.timestamp.getD clock.now)).1 = none :=
      Option.map_eq_none_iff.mp h
    refine ⟨f, rfl, ?_⟩
    simp only [htext, and_self]

theorem drawTimestamp_of_some {c : Settings} {clock : Time.Clock} {r : RecordView}
    {stamp : List Planned} (h : Plan.timestamp? c clock r = some stamp) (s : σ) :
    (drawTimestamp c clock r s).outcome = (Sink.performAll s (Plan.calls stamp)).1.map .sink ∧
      (drawTimestamp c clock r s).sink = (Sink.performAll s (Plan.calls stamp)).2 := by
  unfold Plan.timestamp? at h
  unfold drawTimestamp
  cases hf : c.format with
  | none =>
    rw [hf] at h
    cases h
    exact ⟨rfl, rfl⟩
  | some f =>
    rw [hf] at h
    obtain ⟨text, ht, rfl⟩ := Option.map_eq_some_iff.mp h
    have htext :
        f.render? (moment (c.zone clock) clock (r.timestamp.getD clock.now)).1 = some text := ht
    have hcalls : Plan.calls [.timestamp text] = [Call.text text] := rfl
    simp only [htext]
    rw [hcalls, performAll_singleton]
    exact ⟨rfl, rfl⟩

end Render

end ConsoleLog
