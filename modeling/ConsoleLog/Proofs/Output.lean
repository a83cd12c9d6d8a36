import ConsoleLog.Proofs.Progress
import ConsoleLog.Sink.Terminal

/-!
# The output of a terminal

On a device that has room for all and flushes without failing, a terminal carries out every call. So
what batches write on a device without limit is what the calls of their plans draw, one after the
other.
-/

namespace ConsoleLog

namespace Text

def utf8 (cs : List Char) : List UInt8 := bytes (String.ofList cs)

def chars? (bs : List UInt8) : Option (List Char) :=
  (String.fromUTF8? ⟨bs.toArray⟩).map String.toList

theorem utf8_append (cs ds : List Char) : utf8 (cs ++ ds) = utf8 cs ++ utf8 ds := by
  simp [utf8, bytes]

theorem utf8_toList (s : String) : utf8 s.toList = bytes s := by
  rw [utf8, String.ofList_toList]

@[simp] theorem utf8_nil : utf8 [] = [] := rfl

theorem chars?_utf8 (cs : List Char) : chars? (utf8 cs) = some cs := by
  have hbytes : (⟨(utf8 cs).toArray⟩ : ByteArray) = (String.ofList cs).toByteArray := rfl
  rw [chars?, hbytes, String.fromUTF8?, dif_pos (String.ofList cs).isValidUTF8]
  exact congrArg some String.toList_ofList

end Text

namespace Call

def drawn (m : ColorMode) : Call → List Char
  | .text s => s.toList
  | .line s => s.toList ++ ['\n']
  | .foreground c => if m.showsForeground then (foregroundSgr c).toList else []
  | .background c => if m.showsBackground then (backgroundSgr c).toList else []

def drawnAll (m : ColorMode) (cs : List Call) : List Char := cs.flatMap (drawn m)

def isLine : Call → Bool
  | .line _ => true
  | _ => false

theorem drawnAll_append (m : ColorMode) (cs ds : List Call) :
    drawnAll m (cs ++ ds) = drawnAll m cs ++ drawnAll m ds := by
  simp [drawnAll]

end Call

/-! ## The characters of a record -/

namespace RecordView

/-- The characters that a record's lines have besides those of its texts. -/
def isOwn (c : Char) : Bool := c.isDigit || ": []-".toList.contains c

theorem isOwn_of_mem_padding {c : Char} (h : c ∈ padding.toList) : isOwn c = true := by
  have hall : padding.toList.all isOwn = true := by decide
  exact List.all_eq_true.mp hall c h

theorem isOwn_of_mem_intText {i : Int64} {c : Char} (h : c ∈ (Value.intText i).toList) :
    isOwn c = true := by
  rcases Value.mem_intText h with rfl | hdigit
  · rfl
  · rw [isOwn, hdigit, Bool.true_or]

theorem mem_headerRest {r : RecordView} {c : Char} (h : c ∈ r.headerRest.toList) :
    isOwn c = true ∨ c ∈ r.category.toList := by
  simp only [headerRest, String.toList_append, List.mem_append] at h
  have hcolon : ": ".toList.all isOwn = true := by decide
  have hopen : "[".toList.all isOwn = true := by decide
  have hclose : "]".toList.all isOwn = true := by decide
  rcases h with (((h | h) | h) | h) | h
  · exact Or.inl (List.all_eq_true.mp hcolon c h)
  · exact Or.inr h
  · exact Or.inl (List.all_eq_true.mp hopen c h)
  · exact Or.inl (isOwn_of_mem_intText h)
  · exact Or.inl (List.all_eq_true.mp hclose c h)

theorem mem_lines {r : RecordView} {line : String} {c : Char} (hline : line ∈ r.lines)
    (hc : c ∈ line.toList) :
    isOwn c = true ∨ c ∈ r.category.toList ∨ c ∈ r.message.toList ∨
      ∃ text ∈ r.exceptionLines, c ∈ text.toList := by
  simp only [lines, List.mem_cons, List.mem_map] at hline
  rcases hline with rfl | rfl | ⟨text, htext, rfl⟩
  · exact (mem_headerRest hc).imp id Or.inl
  · rw [String.toList_append] at hc
    rcases List.mem_append.mp hc with hc | hc
    · exact Or.inl (isOwn_of_mem_padding hc)
    · exact Or.inr (Or.inr (Or.inl hc))
  · rw [String.toList_append] at hc
    rcases List.mem_append.mp hc with hc | hc
    · exact Or.inl (isOwn_of_mem_padding hc)
    · exact Or.inr (Or.inr (Or.inr ⟨text, htext, hc⟩))

end RecordView

/-! ## Terminals that carry out every call -/

namespace Device

theorem fits_of_le {d : Device} {bytes : List UInt8}
    (h : ∀ n, d.capacity = some n → d.accepted.length + bytes.length ≤ n) : d.fits bytes = true := by
  unfold fits
  cases hc : d.capacity with
  | none => rfl
  | some n => exact decide_eq_true (h n hc)

theorem admitted_of_fits {d : Device} {bytes : List UInt8} (h : d.fits bytes = true) :
    d.admitted bytes = bytes := by
  unfold fits at h
  unfold admitted
  cases hc : d.capacity with
  | none => rfl
  | some n =>
    rw [hc] at h
    exact List.take_of_length_le (Nat.le_sub_of_add_le' (of_decide_eq_true h))

end Device

namespace Terminal

structure Unlimited (s : Terminal) : Prop where
  capacity : s.device.capacity = none
  flushFaults : s.device.flushFaults = []

def accept (s : Terminal) (cs : List Call) : Terminal where
  mode := s.mode
  colors := Call.recolorAll cs s.colors
  device :=
    { s.device with
      accepted := s.device.accepted ++ Text.utf8 (Call.drawnAll s.mode cs)
      flushes := s.device.flushes + cs.countP Call.isLine }

/-- The device takes all that the calls draw, and no flush fails. -/
structure Room (s : Terminal) (cs : List Call) : Prop where
  capacity : ∀ n, s.device.capacity = some n → (s.accept cs).device.accepted.length ≤ n
  flushFaults : s.device.flushFaults = []

theorem unlimited_new (m : ColorMode) : (new m (.new none [])).Unlimited := ⟨rfl, rfl⟩

theorem Unlimited.accept {s : Terminal} (h : s.Unlimited) (cs : List Call) :
    (s.accept cs).Unlimited := ⟨h.capacity, h.flushFaults⟩

theorem Unlimited.room {s : Terminal} (h : s.Unlimited) (cs : List Call) : s.Room cs := by
  refine ⟨fun n hn => ?_, h.flushFaults⟩
  rw [h.capacity] at hn
  cases hn

theorem accept_nil (s : Terminal) : s.accept [] = s := by
  simp [Terminal.accept, Call.recolorAll, Call.drawnAll]

theorem accept_append (s : Terminal) (cs ds : List Call) :
    s.accept (cs ++ ds) = (s.accept cs).accept ds := by
  simp [Terminal.accept, Call.recolorAll_append, Call.drawnAll_append, Text.utf8_append, Nat.add_assoc]

theorem accept_singleton (s : Terminal) (c : Call) :
    s.accept [c] =
      { s with
        colors := c.recolor s.colors
        device := { s.device with
          accepted := s.device.accepted ++ Text.utf8 (c.drawn s.mode)
          flushes := s.device.flushes + [c].countP Call.isLine } } := by
  simp [Terminal.accept, Call.recolorAll, Call.drawnAll]

theorem accepted_accept_append (s : Terminal) (cs ds : List Call) :
    (s.accept (cs ++ ds)).device.accepted =
      (s.accept cs).device.accepted ++ Text.utf8 (Call.drawnAll s.mode ds) := by
  rw [accept_append]
  rfl

theorem Room.of_append {s : Terminal} {cs ds : List Call} (h : s.Room (cs ++ ds)) :
    s.Room cs ∧ (s.accept cs).Room ds := by
  refine ⟨⟨fun n hn => ?_, h.flushFaults⟩, ⟨fun n hn => ?_, h.flushFaults⟩⟩
  · have hall := h.capacity n hn
    rw [accepted_accept_append, List.length_append] at hall
    omega
  · rw [← accept_append]
    exact h.capacity n hn

theorem utf8_drawn_line (m : ColorMode) (text : String) :
    Text.utf8 (Call.drawn m (.line text)) = Text.bytes text ++ Text.bytes "\n" := by
  rw [Call.drawn, Text.utf8_append, Text.utf8_toList]
  rfl

theorem write_of_fits {s : Terminal} {text : String} (h : s.device.fits (Text.bytes text) = true) :
    s.write text =
      (.done, { s with device := { s.device with
        accepted := s.device.accepted ++ Text.bytes text } }) := by
  simp only [write, Device.write, h, Device.admitted_of_fits h, if_true]

theorem flush_eq (s : Terminal) :
    s.flush = (if s.device.flushes ∈ s.device.flushFaults then .failed "flush failed" else .done,
      { s with device := { s.device with flushes := s.device.flushes + 1 } }) := by
  simp [flush, Device.flush]

/-- A line that fits is written, also if its flush then fails. -/
theorem perform_line_of_fits {s : Terminal} {text : String}
    (htext : s.device.fits (Text.bytes text) = true)
    (hbreak : { s.device with accepted := s.device.accepted ++ Text.bytes text }.fits
      (Text.bytes "\n") = true) :
    s.perform (.line text) =
      (if s.device.flushes ∈ s.device.flushFaults then .failed "flush failed" else .done,
        s.accept [.line text]) := by
  rw [perform, writeLine, write_of_fits htext]
  simp only
  rw [write_of_fits hbreak]
  simp only
  rw [flush_eq, accept_singleton, utf8_drawn_line, ← List.append_assoc]
  rfl

theorem changeColor_of_fits {s : Terminal} {shown : Bool} {sequence : String} {c : Call}
    (h : s.device.fits (Text.utf8 (c.drawn s.mode)) = true) (hline : c.isLine = false)
    (hdrawn : c.drawn s.mode = if shown then sequence.toList else []) :
    s.changeColor shown sequence c = (.done, s.accept [c]) := by
  rw [hdrawn] at h
  rw [changeColor, accept_singleton, hdrawn]
  cases shown with
  | true =>
    rw [if_pos rfl, Text.utf8_toList] at h
    rw [if_pos rfl, write_of_fits h, if_pos rfl, Text.utf8_toList]
    simp [hline]
  | false => simp [hline]

theorem perform_of_fits {s : Terminal} {c : Call} (hc : c.isLine = false)
    (h : s.device.fits (Text.utf8 (c.drawn s.mode)) = true) : s.perform c = (.done, s.accept [c]) := by
  cases c with
  | text t =>
    rw [Call.drawn, Text.utf8_toList] at h
    rw [perform, write_of_fits h, accept_singleton, Call.drawn, Text.utf8_toList]
    rfl
  | line t => cases hc
  | foreground c => exact changeColor_of_fits h rfl rfl
  | background c => exact changeColor_of_fits h rfl rfl

theorem perform_of_room {s : Terminal} {c : Call} (h : s.Room [c]) :
    s.perform c = (.done, s.accept [c]) := by
  have hroom : ∀ n, s.device.capacity = some n →
      s.device.accepted.length + (Text.utf8 (c.drawn s.mode)).length ≤ n := by
    intro n hn
    have hall := h.capacity n hn
    rwa [accept_singleton, List.length_append] at hall
  cases hc : c.isLine with
  | false => exact perform_of_fits hc (Device.fits_of_le hroom)
  | true =>
    cases c with
    | line t =>
      rw [utf8_drawn_line, List.length_append, ← Nat.add_assoc] at hroom
      have htext : s.device.fits (Text.bytes t) = true :=
        Device.fits_of_le fun n hn => Nat.le_trans (Nat.le_add_right _ _) (hroom n hn)
      rw [perform_line_of_fits htext (Device.fits_of_le fun n hn => by simpa using hroom n hn),
        h.flushFaults]
      rfl
    | _ => cases hc

theorem performAll_of_room {s : Terminal} {cs : List Call} (h : s.Room cs) :
    Sink.performAll s cs = (.done, s.accept cs) := by
  induction cs generalizing s with
  | nil => rw [accept_nil, Sink.performAll]
  | cons c cs ih =>
    obtain ⟨hfirst, hrest⟩ := (show s.Room ([c] ++ cs) from h).of_append
    have hc : Sink.perform s c = (.done, s.accept [c]) := perform_of_room hfirst
    rw [Sink.performAll_cons_of_done hc, ih hrest, ← accept_append]
    rfl

theorem colors_write (s : Terminal) (text : String) : (s.write text).2.colors = s.colors := rfl

theorem colors_writeLine (s : Terminal) (text : String) : (s.writeLine text).2.colors = s.colors := by
  unfold writeLine
  split
  · rename_i s₁ h₁
    have hs₁ : s₁.colors = s.colors := congrArg (fun r => r.2.colors) h₁.symm
    split
    · rename_i s₂ h₂
      have hs₂ : s₂.colors = s₁.colors := congrArg (fun r => r.2.colors) h₂.symm
      exact hs₂.trans hs₁
    · exact hs₁
  · rfl

theorem colors_changeColor (s : Terminal) (shown : Bool) (sequence : String) (c : Call) :
    (s.changeColor shown sequence c).2.colors =
      if (s.changeColor shown sequence c).1 = .done then c.recolor s.colors else s.colors := by
  cases shown with
  | false => simp [changeColor]
  | true =>
    have hw := colors_write s sequence
    simp only [changeColor, if_true]
    cases h : s.write sequence with
    | mk o s' =>
      rw [h] at hw
      cases o <;> simp_all

theorem colors_perform (s : Terminal) (c : Call) :
    (s.perform c).2.colors = if (s.perform c).1 = .done then c.recolor s.colors else s.colors := by
  cases c with
  | text t => exact (ite_self _).symm
  | line t => exact (colors_writeLine s t).trans (ite_self _).symm
  | foreground c => exact colors_changeColor s _ _ _
  | background c => exact colors_changeColor s _ _ _

instance : LawfulSink Terminal where
  colors_of_done {s s' c} h := by
    have hc := colors_perform s c
    change s.perform c = _ at h
    rw [h, if_pos rfl] at hc
    exact hc
  colors_of_ne_done {s c} h := (colors_perform s c).trans (if_neg h)

end Terminal

/-! ## The plans of batches -/

namespace Plan

/-- The calls of a batch from the record with place `i` on: the plans of its records, up to the
first whose timestamp has no text. -/
def ofRecords (c : Settings) (clock : Nat → Time.Clock) (prior : ColorPair) :
    Nat → List RecordView → List Planned
  | _, [] => []
  | i, r :: rs =>
    match ofRecord? c (clock i) r prior with
    | some plan => plan ++ ofRecords c clock prior (i + 1) rs
    | none => []

def ofBatches (c : Settings) (clock : Nat → Nat → Time.Clock) (prior : ColorPair) :
    List (List RecordView) → List Planned
  | [] => []
  | rs :: batches =>
    ofRecords c (clock 0) prior 0 rs ++ ofBatches c (fun n => clock (n + 1)) prior batches

theorem recolorAll_ofRecord {c : Settings} {clock : Time.Clock} {r : RecordView} {prior : ColorPair}
    {plan : List Planned} (h : ofRecord? c clock r prior = some plan) :
    Call.recolorAll (calls plan) prior = prior := by
  obtain ⟨stamp, hstamp, rfl⟩ := Option.map_eq_some_iff.mp h
  simp only [calls_append, Call.recolorAll_append]
  rw [Call.recolorAll_of_written (written_lines r), recolorAll_restoring]

theorem recolorAll_ofRecords (c : Settings) (clock : Nat → Time.Clock) (prior : ColorPair) (i : Nat)
    (rs : List RecordView) :
    Call.recolorAll (calls (ofRecords c clock prior i rs)) prior = prior := by
  induction rs generalizing i with
  | nil => rfl
  | cons r rs ih =>
    rw [ofRecords]
    cases hplan : ofRecord? c (clock i) r prior with
    | none => rfl
    | some plan =>
      simp only
      rw [calls_append, Call.recolorAll_append, recolorAll_ofRecord hplan, ih]

theorem recolorAll_ofBatches (c : Settings) (clock : Nat → Nat → Time.Clock) (prior : ColorPair)
    (batches : List (List RecordView)) :
    Call.recolorAll (calls (ofBatches c clock prior batches)) prior = prior := by
  induction batches generalizing clock with
  | nil => rfl
  | cons rs batches ih =>
    rw [ofBatches, calls_append, Call.recolorAll_append, recolorAll_ofRecords, ih]

end Plan

/-! ## Batches on a terminal -/

namespace Terminal

variable (c : Settings) {s : Terminal}

theorem batch_of_unlimited (clock : Nat → Time.Clock) (i : Nat) (h : s.Unlimited)
    (rs : List RecordView) :
    (Trace.batch c clock i s rs).sink =
      s.accept (Plan.calls (Plan.ofRecords c clock s.colors i rs)) := by
  induction rs generalizing i s with
  | nil => exact (accept_nil s).symm
  | cons r rs ih =>
    rw [Trace.batch, Plan.ofRecords]
    cases hplan : Plan.ofRecord? c (clock i) r s.colors with
    | some plan =>
      obtain ⟨hdone, hsink⟩ :=
        (Trace.runs_record c hplan).completes (performAll_of_room (h.room _))
      have hout : ((Trace.record c (clock i) r s).mapError (ExportError.mk i)).outcome = .done :=
        congrArg (Outcome.map _) hdone
      have hcolors : (s.accept (Plan.calls plan)).colors = s.colors := Plan.recolorAll_ofRecord hplan
      rw [Trace.andThen_of_done hout]
      change (Trace.batch c clock (i + 1) (Trace.record c (clock i) r s).sink rs).sink = _
      rw [hsink, ih (i + 1) (h.accept _), hcolors, Plan.calls_append, accept_append]
    | none =>
      -- a timestamp without text fails the record before it makes a call
      obtain ⟨hout, hsink⟩ :=
        Trace.record_of_unformatted (c := c) (Option.map_eq_none_iff.mp hplan) s
      have hne : ((Trace.record c (clock i) r s).mapError (ExportError.mk i)).outcome ≠ .done :=
        fun hdone => hout ((Outcome.map_eq_done_iff _ _).mp hdone)
      rw [Trace.andThen_of_ne_done hne]
      exact hsink.trans (accept_nil s).symm

end Terminal

namespace Exporter

theorem sink_exportBatch_of_unlimited (clock : Nat → Time.Clock) (e : Exporter Terminal)
    (h : e.sink.Unlimited) (rs : List RecordView) :
    (e.step clock (.exportBatch rs)).exporter.sink =
      e.sink.accept (Plan.calls (Plan.ofRecords e.settings clock e.sink.colors 0 rs)) := by
  rw [step_sink]
  exact Terminal.batch_of_unlimited e.settings clock 0 h rs

theorem lastSink_of_unlimited (clock : Nat → Nat → Time.Clock) (e : Exporter Terminal)
    (h : e.sink.Unlimited) (batches : List (List RecordView)) :
    e.lastSink clock (batches.map .exportBatch) =
      e.sink.accept (Plan.calls (Plan.ofBatches e.settings clock e.sink.colors batches)) := by
  induction batches generalizing clock e with
  | nil => exact (Terminal.accept_nil e.sink).symm
  | cons rs batches ih =>
    have hstep := sink_exportBatch_of_unlimited (clock 0) e h rs
    have hcolors : (e.step (clock 0) (.exportBatch rs)).exporter.sink.colors = e.sink.colors := by
      rw [hstep]
      exact Plan.recolorAll_ofRecords e.settings (clock 0) e.sink.colors 0 rs
    rw [List.map_cons, lastSink_cons, ih _ _ (by rw [hstep]; exact h.accept _), hcolors, hstep,
      step_settings, ← Terminal.accept_append, ← Plan.calls_append]
    rfl

end Exporter

end ConsoleLog
