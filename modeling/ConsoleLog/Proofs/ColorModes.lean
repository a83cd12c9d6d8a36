import ConsoleLog.Proofs.Screen

/-!
# Color modes

What a screen shows of the output does not hang on the mode but for the colors that the mode holds
back. So batches show the same characters in all modes, the tags in the colors of the policy and all
else in the colors that a terminal has of its own.
-/

namespace ConsoleLog

def ownColors : ColorPair := ⟨.default, .default⟩

namespace ColorMode

def shown (m : ColorMode) (p : ColorPair) : ColorPair where
  foreground := if m.showsForeground then p.foreground else .default
  background := if m.showsBackground then p.background else .default

theorem shown_ownColors (m : ColorMode) : m.shown ownColors = ownColors := by
  cases m <;> rfl

end ColorMode

namespace Cell

def inMode (m : ColorMode) (x : Cell) : Cell := { x with colors := m.shown x.colors }

theorem inMode_full : inMode .full = id := rfl

theorem inMode_foregroundOnly :
    inMode .foregroundOnly = fun x => ⟨x.char, ⟨x.colors.foreground, .default⟩⟩ := rfl

end Cell

/-! ## Calls on a screen -/

namespace Call

def cells (p : ColorPair) : Call → List Cell
  | .text s => s.toList.map (⟨·, p⟩)
  | .line s => (s.toList ++ ['\n']).map (⟨·, p⟩)
  | _ => []

def cellsAll : ColorPair → List Call → List Cell
  | _, [] => []
  | p, c :: cs => c.cells p ++ cellsAll (c.recolor p) cs

def tokens (m : ColorMode) : Call → List Screen.Token
  | .text s => s.toList.map .char
  | .line s => (s.toList ++ ['\n']).map .char
  | .foreground c => if m.showsForeground then [.sgr (Screen.parameters 3 c)] else []
  | .background c => if m.showsBackground then [.sgr (Screen.parameters 4 c)] else []

def EscapeFree (c : Call) : Prop := ∀ text, c.written? = some text → Screen.esc ∉ text.toList

variable (m : ColorMode)

theorem cellsAll_append (p : ColorPair) (cs ds : List Call) :
    cellsAll p (cs ++ ds) = cellsAll p cs ++ cellsAll (recolorAll cs p) ds := by
  induction cs generalizing p with
  | nil => rfl
  | cons c cs ih => rw [List.cons_append, cellsAll, ih, cellsAll, List.append_assoc, recolorAll]

theorem tokens_drawn {c : Call} (h : c.EscapeFree) (rest : List Char) :
    Screen.tokens (c.drawn m ++ rest) = c.tokens m ++ Screen.tokens rest := by
  cases c with
  | text s => exact Screen.tokens_append_of_not_mem (h s rfl) rest
  | line s =>
    have hs : Screen.esc ∉ s.toList ++ ['\n'] := by
      intro hmem
      rcases List.mem_append.mp hmem with hmem | hmem
      · exact h s rfl hmem
      · cases List.mem_singleton.mp hmem
    exact Screen.tokens_append_of_not_mem hs rest
  | foreground c =>
    cases hm : m.showsForeground with
    | true => simp [drawn, tokens, hm, Screen.tokens_foregroundSgr]
    | false => simp [drawn, tokens, hm]
  | background c =>
    cases hm : m.showsBackground with
    | true => simp [drawn, tokens, hm, Screen.tokens_backgroundSgr]
    | false => simp [drawn, tokens, hm]

theorem tokens_drawnAll {cs : List Call} (h : ∀ c ∈ cs, c.EscapeFree) :
    Screen.tokens (drawnAll m cs) = cs.flatMap (tokens m) := by
  induction cs with
  | nil => rfl
  | cons c cs ih =>
    rw [drawnAll, List.flatMap_cons, tokens_drawn m (h c (by simp)), List.flatMap_cons]
    exact congrArg _ (ih fun d hd => h d (List.mem_cons_of_mem _ hd))

theorem esc_not_mem_drawnAll {cs : List Call} (h : ∀ c ∈ cs, c.EscapeFree) :
    Screen.esc ∉ drawnAll .disabled cs := by
  intro hmem
  obtain ⟨c, hc, hesc⟩ := List.mem_flatMap.mp hmem
  cases c with
  | text s => exact h _ hc s rfl hesc
  | line s =>
    rcases List.mem_append.mp hesc with hesc | hesc
    · exact h _ hc s rfl hesc
    · cases List.mem_singleton.mp hesc
  | foreground c => cases hesc
  | background c => cases hesc

theorem shown_tokens (p : ColorPair) (c : Call) :
    (c.tokens m).flatMap Screen.Token.shown = (c.cells p).map (·.char) := by
  cases c with
  | text s => simp [tokens, cells, List.flatMap_map, Screen.Token.shown, Function.comp_def]
  | line s => simp [tokens, cells, List.flatMap_map, Screen.Token.shown, Function.comp_def]
  | foreground c => cases hm : m.showsForeground <;> simp [tokens, cells, hm, Screen.Token.shown]
  | background c => cases hm : m.showsBackground <;> simp [tokens, cells, hm, Screen.Token.shown]

theorem shown_tokensAll (p : ColorPair) (cs : List Call) :
    (cs.flatMap (tokens m)).flatMap Screen.Token.shown = (cellsAll p cs).map (·.char) := by
  induction cs generalizing p with
  | nil => rfl
  | cons c cs ih =>
    rw [List.flatMap_cons, List.flatMap_append, shown_tokens m p, ih (c.recolor p), cellsAll,
      List.map_append]

theorem draw_tokens (p : ColorPair) (c : Call) :
    Screen.draw (m.shown p) (c.tokens m) =
      ((c.cells p).map (Cell.inMode m), m.shown (c.recolor p)) := by
  cases c with
  | text s =>
    rw [tokens, Screen.draw_chars]
    simp [cells, recolor, Cell.inMode]
  | line s =>
    rw [tokens, Screen.draw_chars]
    simp [cells, recolor, Cell.inMode]
  | foreground c =>
    cases hm : m.showsForeground with
    | true => simp [tokens, hm, Screen.draw, Screen.recolor_foreground, cells, recolor, ColorMode.shown]
    | false => simp [tokens, hm, Screen.draw, cells, recolor, ColorMode.shown]
  | background c =>
    cases hm : m.showsBackground with
    | true => simp [tokens, hm, Screen.draw, Screen.recolor_background, cells, recolor, ColorMode.shown]
    | false => simp [tokens, hm, Screen.draw, cells, recolor, ColorMode.shown]

theorem draw_tokensAll (p : ColorPair) (cs : List Call) :
    Screen.draw (m.shown p) (cs.flatMap (tokens m)) =
      ((cellsAll p cs).map (Cell.inMode m), m.shown (recolorAll cs p)) := by
  induction cs generalizing p with
  | nil => rfl
  | cons c cs ih =>
    rw [List.flatMap_cons, Screen.draw_append, draw_tokens, ih, cellsAll, List.map_append, recolorAll]

theorem sgr_mem_tokensAll {cs : List Call} {ps : List Char}
    (h : .sgr ps ∈ cs.flatMap (tokens m)) :
    (m.showsForeground = true ∧ ∃ c, ps = Screen.parameters 3 c) ∨
      (m.showsBackground = true ∧ ∃ c, ps = Screen.parameters 4 c) := by
  obtain ⟨c, _, hc⟩ := List.mem_flatMap.mp h
  cases c with
  | text s => simp [tokens] at hc
  | line s => simp [tokens] at hc
  | foreground c =>
    simp only [tokens] at hc
    split at hc
    · rename_i hm
      cases List.mem_singleton.mp hc
      exact Or.inl ⟨hm, c, rfl⟩
    · cases hc
  | background c =>
    simp only [tokens] at hc
    split at hc
    · rename_i hm
      cases List.mem_singleton.mp hc
      exact Or.inr ⟨hm, c, rfl⟩
    · cases hc

end Call

/-! ## Records on a screen -/

def plainCells (cs : List Char) : List Cell := cs.map (⟨·, ownColors⟩)

/-- The text before a tag, and none if the format has an item without text. -/
def stampText? (c : Settings) (clock : Time.Clock) (r : RecordView) : Option String :=
  match c.format with
  | none => some ""
  | some f => Plan.timestampText? c clock r f

/-- The tag in the colors that the policy has for it, and all else in the terminal's own. -/
def recordCells (c : Settings) (stamp : String) (r : RecordView) : List Cell :=
  plainCells stamp.toList ++
    r.shownSeverity.tag.toList.map (⟨·, c.policy.colorsFor r.shownSeverity⟩) ++
    (Plan.lineTexts r).flatMap fun line => plainCells (line.toList ++ ['\n'])

/-- The cells of a batch from the record with place `i` on. A timestamp without text ends it. -/
def batchCells (c : Settings) (clock : Nat → Time.Clock) : Nat → List RecordView → List Cell
  | _, [] => []
  | i, r :: rs =>
    match stampText? c (clock i) r with
    | some stamp => recordCells c stamp r ++ batchCells c clock (i + 1) rs
    | none => []

def sessionCells (c : Settings) (clock : Nat → Nat → Time.Clock) : List (List RecordView) → List Cell
  | [] => []
  | rs :: batches => batchCells c (clock 0) 0 rs ++ sessionCells c (fun n => clock (n + 1)) batches

/-- No text of the record holds an escape. -/
structure RecordView.EscapeFree (c : Settings) (clock : Time.Clock) (r : RecordView) : Prop where
  stamp : ∀ text, stampText? c clock r = some text → Screen.esc ∉ text.toList
  category : Screen.esc ∉ r.category.toList
  message : Screen.esc ∉ (Plan.messageText r).toList
  exception : ∀ line ∈ r.exceptionLines, Screen.esc ∉ line.toList

def SessionEscapeFree (c : Settings) (clock : Nat → Nat → Time.Clock)
    (batches : List (List RecordView)) : Prop :=
  ∀ (n i : Nat) (rs : List RecordView) (r : RecordView),
    batches[n]? = some rs → rs[i]? = some r → r.EscapeFree c (clock n i)

namespace Call

theorem cellsAll_lines (p : ColorPair) (texts : List String) :
    cellsAll p (texts.map .line) = texts.flatMap fun text => (text.toList ++ ['\n']).map (⟨·, p⟩) := by
  induction texts with
  | nil => rfl
  | cons text texts ih =>
    rw [List.map_cons, cellsAll, List.flatMap_cons]
    exact congrArg _ ih

end Call

namespace Plan

theorem cells_afterStamp (c : Settings) (r : RecordView) :
    Call.cellsAll ownColors (calls (colored c r ++ restoring ownColors ++ lines r)) =
      r.shownSeverity.tag.toList.map (⟨·, tagColors c r⟩) ++
        (lineTexts r).flatMap fun line => plainCells (line.toList ++ ['\n']) := by
  rw [calls_append, Call.cellsAll_append, calls_lines, ← lineTexts_eq, Call.cellsAll_lines]
  simp [calls_append, calls_colored, calls_restoring, Render.setColors, Call.cellsAll, Call.cells,
    Call.recolorAll, Call.recolor, plainCells]

theorem cells_timestamp (c : Settings) (clock : Time.Clock) (r : RecordView) :
    (timestamp? c clock r).map (fun stamp => Call.cellsAll ownColors (calls stamp)) =
      (stampText? c clock r).map fun text => plainCells text.toList := by
  unfold timestamp? stampText?
  cases c.format with
  | none => rfl
  | some f =>
    have hcells : ∀ text, Call.cellsAll ownColors (calls [.timestamp text]) = plainCells text.toList :=
      fun text => List.append_nil _
    simp only [Option.map_map, Function.comp_def, hcells]

theorem cells_ofRecord (c : Settings) (clock : Time.Clock) (r : RecordView) :
    (ofRecord? c clock r ownColors).map (fun plan => Call.cellsAll ownColors (calls plan)) =
      (stampText? c clock r).map (recordCells c · r) := by
  have hstamp := cells_timestamp c clock r
  cases htext : stampText? c clock r with
  | none =>
    rw [htext, Option.map_none, Option.map_eq_none_iff] at hstamp
    rw [ofRecord?, hstamp]
    rfl
  | some text =>
    rw [htext, Option.map_some, Option.map_eq_some_iff] at hstamp
    obtain ⟨stamp, hplan, hcells⟩ := hstamp
    rw [ofRecord?, hplan, Option.map_some, Option.map_some, Option.map_some, List.append_assoc,
      List.append_assoc, ← List.append_assoc (colored c r), calls_append, Call.cellsAll_append,
      Call.recolorAll_of_written (written_timestamp hplan), hcells, cells_afterStamp, recordCells,
      List.append_assoc]
    rfl

theorem cells_ofRecords (c : Settings) (clock : Nat → Time.Clock) (i : Nat) (rs : List RecordView) :
    Call.cellsAll ownColors (calls (ofRecords c clock ownColors i rs)) = batchCells c clock i rs := by
  induction rs generalizing i with
  | nil => rfl
  | cons r rs ih =>
    have hr := cells_ofRecord c (clock i) r
    rw [ofRecords, batchCells]
    cases hplan : ofRecord? c (clock i) r ownColors with
    | none =>
      rw [hplan, Option.map_none, eq_comm, Option.map_eq_none_iff] at hr
      rw [hr]
      rfl
    | some plan =>
      rw [hplan, Option.map_some, eq_comm, Option.map_eq_some_iff] at hr
      obtain ⟨text, htext, hcells⟩ := hr
      simp only [htext]
      rw [calls_append, Call.cellsAll_append, recolorAll_ofRecord hplan, ih, hcells]

theorem cells_ofBatches (c : Settings) (clock : Nat → Nat → Time.Clock)
    (batches : List (List RecordView)) :
    Call.cellsAll ownColors (calls (ofBatches c clock ownColors batches)) =
      sessionCells c clock batches := by
  induction batches generalizing clock with
  | nil => rfl
  | cons rs batches ih =>
    rw [ofBatches, sessionCells, calls_append, Call.cellsAll_append, recolorAll_ofRecords,
      cells_ofRecords, ih]

/-! ## Escapes -/

theorem esc_not_mem_tag (severity : Severity) : Screen.esc ∉ severity.tag.toList := by
  intro h
  cases Severity.isLower_of_mem_tag h

theorem esc_not_mem_lines {c : Settings} {clock : Time.Clock} {r : RecordView}
    (h : r.EscapeFree c clock) {line : String} (hline : line ∈ r.lines) :
    Screen.esc ∉ line.toList := by
  intro hmem
  rcases RecordView.mem_lines hline hmem with hown | hcategory | hmessage | ⟨text, htext, hmem⟩
  · cases hown
  · exact h.category hcategory
  · rw [message_eq] at hmessage
    exact h.message hmessage
  · exact h.exception text htext hmem

theorem escapeFree_timestamp {c : Settings} {clock : Time.Clock} {r : RecordView}
    (h : r.EscapeFree c clock) {stamp : List Planned} (hstamp : timestamp? c clock r = some stamp) :
    ∀ d ∈ calls stamp, d.EscapeFree := by
  have htext := h.stamp
  unfold timestamp? at hstamp
  unfold stampText? at htext
  cases hf : c.format with
  | none =>
    rw [hf] at hstamp
    cases hstamp
    simp [calls]
  | some f =>
    rw [hf] at hstamp htext
    obtain ⟨text, hread, rfl⟩ := Option.map_eq_some_iff.mp hstamp
    intro d hd
    cases List.mem_singleton.mp hd
    rintro _ ⟨⟩
    exact htext text hread

theorem escapeFree_ofRecord {c : Settings} {clock : Time.Clock} {r : RecordView} {prior : ColorPair}
    {plan : List Planned} (h : r.EscapeFree c clock) (hplan : ofRecord? c clock r prior = some plan) :
    ∀ d ∈ calls plan, d.EscapeFree := by
  obtain ⟨stamp, hstamp, rfl⟩ := Option.map_eq_some_iff.mp hplan
  intro d hd
  rw [calls_append, calls_append, calls_append, calls_lines] at hd
  rcases List.mem_append.mp hd with hd | hline
  · rcases List.mem_append.mp hd with hd | hrestoring
    · rcases List.mem_append.mp hd with hstamped | hcolored
      · exact escapeFree_timestamp h hstamp d hstamped
      · simp only [calls_colored, Render.setColors, List.cons_append, List.nil_append, List.mem_cons,
          List.not_mem_nil, or_false] at hcolored
        rcases hcolored with rfl | rfl | rfl <;> rintro _ ⟨⟩
        exact esc_not_mem_tag r.shownSeverity
    · simp only [calls_restoring, Render.setColors, List.mem_cons, List.not_mem_nil, or_false]
        at hrestoring
      rcases hrestoring with rfl | rfl <;> rintro _ ⟨⟩
  · obtain ⟨text, htext, rfl⟩ := List.mem_map.mp hline
    rintro _ ⟨⟩
    exact esc_not_mem_lines h htext

theorem escapeFree_ofRecords {c : Settings} {clock : Nat → Time.Clock} {prior : ColorPair} {i : Nat}
    {rs : List RecordView}
    (h : ∀ (j : Nat) (r : RecordView), rs[j]? = some r → r.EscapeFree c (clock (i + j))) :
    ∀ d ∈ calls (ofRecords c clock prior i rs), d.EscapeFree := by
  induction rs generalizing i with
  | nil => simp [ofRecords, calls]
  | cons r rs ih =>
    rw [ofRecords]
    cases hplan : ofRecord? c (clock i) r prior with
    | none => simp [calls]
    | some plan =>
      intro d hd
      rw [calls_append] at hd
      rcases List.mem_append.mp hd with hd | hd
      · exact escapeFree_ofRecord (h 0 r rfl) hplan d hd
      · refine ih (fun j q hq => ?_) d hd
        have hnext := h (j + 1) q hq
        rwa [Nat.add_comm j 1, ← Nat.add_assoc] at hnext

theorem escapeFree_ofBatches {c : Settings} {clock : Nat → Nat → Time.Clock}
    {batches : List (List RecordView)} (prior : ColorPair) (h : SessionEscapeFree c clock batches) :
    ∀ d ∈ calls (ofBatches c clock prior batches), d.EscapeFree := by
  induction batches generalizing clock with
  | nil => simp [ofBatches, calls]
  | cons rs batches ih =>
    intro d hd
    rw [ofBatches, calls_append] at hd
    rcases List.mem_append.mp hd with hd | hd
    · refine escapeFree_ofRecords (fun i r hr => ?_) d hd
      rw [Nat.zero_add]
      exact h 0 i rs r rfl hr
    · exact ih (fun n i qs r hqs => h (n + 1) i qs r hqs) d hd

end Plan

/-! ## The three modes -/

namespace Exporter

/-- What batches write on a fresh terminal whose device has room for all. -/
def output? (c : Settings) (clock : Nat → Nat → Time.Clock) (m : ColorMode)
    (batches : List (List RecordView)) : Option (List Char) :=
  let e : Exporter Terminal := ⟨c, .new (.new m (.new none [])), false⟩
  Text.chars? (e.lastSink clock (batches.map .exportBatch)).device.accepted

variable {c : Settings} {clock : Nat → Nat → Time.Clock} {batches : List (List RecordView)}

theorem output?_eq (c : Settings) (clock : Nat → Nat → Time.Clock) (m : ColorMode)
    (batches : List (List RecordView)) :
    output? c clock m batches =
      some (Call.drawnAll m (Plan.calls (Plan.ofBatches c clock ownColors batches))) := by
  rw [output?, lastSink_of_unlimited]
  · exact Text.chars?_utf8 _
  · exact Terminal.unlimited_new m

theorem draw_output (m : ColorMode) (h : SessionEscapeFree c clock batches) :
    ∃ out, output? c clock m batches = some out ∧
      Screen.text out = (sessionCells c clock batches).map (·.char) ∧
      Screen.draw ownColors (Screen.tokens out) =
        ((sessionCells c clock batches).map (Cell.inMode m), ownColors) ∧
      Screen.tokens out =
        (Plan.calls (Plan.ofBatches c clock ownColors batches)).flatMap (Call.tokens m) := by
  have htokens := Call.tokens_drawnAll m (Plan.escapeFree_ofBatches ownColors h)
  refine ⟨_, output?_eq c clock m batches, ?_, ?_, htokens⟩
  · rw [Screen.text, htokens, Call.shown_tokensAll m ownColors, Plan.cells_ofBatches]
  · have hdraw := Call.draw_tokensAll m ownColors
      (Plan.calls (Plan.ofBatches c clock ownColors batches))
    rw [ColorMode.shown_ownColors, Plan.recolorAll_ofBatches, Plan.cells_ofBatches,
      ColorMode.shown_ownColors] at hdraw
    rw [htokens, hdraw]

/-- Without its color sequences the output is the same in all modes. With them a screen shows the
tags in the colors of the policy, or in their foregrounds alone, and all else in its own. -/
theorem modes_draw_same_cells (h : SessionEscapeFree c clock batches) :
    ∃ full foreground disabled,
      output? c clock .full batches = some full ∧
      output? c clock .foregroundOnly batches = some foreground ∧
      output? c clock .disabled batches = some disabled ∧
      Screen.text full = disabled ∧ Screen.text foreground = disabled ∧ Screen.esc ∉ disabled ∧
      disabled = (sessionCells c clock batches).map (·.char) ∧
      Screen.draw ownColors (Screen.tokens full) = (sessionCells c clock batches, ownColors) ∧
      Screen.draw ownColors (Screen.tokens foreground) =
        ((sessionCells c clock batches).map fun x => ⟨x.char, ⟨x.colors.foreground, .default⟩⟩,
          ownColors) ∧
      ∀ color, ¬ (backgroundSgr color).toList <:+: foreground := by
  obtain ⟨full, hfull, hfullText, hfullDraw, _⟩ := draw_output .full h
  obtain ⟨foreground, hfore, hforeText, hforeDraw, hforeTokens⟩ := draw_output .foregroundOnly h
  obtain ⟨disabled, hdis, hdisText, _⟩ := draw_output .disabled h
  have hplain : Screen.esc ∉ disabled := by
    rw [output?_eq] at hdis
    cases hdis
    exact Call.esc_not_mem_drawnAll (Plan.escapeFree_ofBatches ownColors h)
  -- without an escape there is no sequence to leave out
  rw [Screen.text_of_not_mem hplain] at hdisText
  refine ⟨full, foreground, disabled, hfull, hfore, hdis, hfullText.trans hdisText.symm,
    hforeText.trans hdisText.symm, hplain, hdisText, ?_, ?_, fun color hinfix => ?_⟩
  · rw [hfullDraw, Cell.inMode_full, List.map_id]
  · rw [hforeDraw, Cell.inMode_foregroundOnly]
  · -- a background sequence would be read as a token, and calls draw none in this mode
    have hmem := Screen.tokens_of_backgroundSgr_infix hinfix
    rw [hforeTokens] at hmem
    rcases Call.sgr_mem_tokensAll _ hmem with ⟨_, d, hd⟩ | ⟨hshows, _⟩
    · exact Screen.parameters_ne d color hd.symm
    · cases hshows

theorem modes_draw_same_cells_warning :
    let format : Time.Format := ⟨"%H ", [.number .hour .zeros, .literal ' '], by decide⟩
    let c : Settings := ⟨some format, true, .standard⟩
    let clock : Nat → Nat → Time.Clock := fun _ _ => ⟨.epoch, 0⟩
    let r : RecordView := ⟨.level .warning, "App", 7, some "m", none, some "a\nb", none⟩
    SessionEscapeFree c clock [[r]] ∧
    ∃ full, output? c clock .full [[r]] = some full ∧
      Screen.text full = "00 warn: App[7]\n      m\n      a\n      b\n".toList ∧
      Screen.draw ownColors (Screen.tokens full) =
        (plainCells "00 ".toList ++ "warn".toList.map (⟨·, .yellow, .black⟩) ++
          plainCells ": App[7]\n      m\n      a\n      b\n".toList, ownColors) := by
  intro format c clock r
  have hstamp : stampText? c (clock 0 0) r = some "00 " := by decide
  have hr : r.EscapeFree c (clock 0 0) := by
    refine ⟨fun text htext => ?_, by decide, by decide, by decide⟩
    rw [hstamp] at htext
    cases htext
    decide
  have h : SessionEscapeFree c clock [[r]] := by
    intro n i rs q hrs hq
    have hmem : rs = [r] := List.mem_singleton.mp (List.mem_of_getElem? hrs)
    subst hmem
    cases List.mem_singleton.mp (List.mem_of_getElem? hq)
    exact hr
  obtain ⟨full, _, _, hfull, _, _, htext, _, _, hcells, hdraw, _⟩ := modes_draw_same_cells h
  have hsession : sessionCells c clock [[r]] =
      plainCells "00 ".toList ++ "warn".toList.map (⟨·, .yellow, .black⟩) ++
          plainCells ": App[7]\n      m\n      a\n      b\n".toList := by decide
  refine ⟨h, full, hfull, ?_, ?_⟩
  · rw [htext, hcells, hsession]
    decide
  · rw [hdraw, hsession]

end Exporter

end ConsoleLog
