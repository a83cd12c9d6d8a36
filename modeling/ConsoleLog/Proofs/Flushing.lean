import ConsoleLog.Proofs.Batch
import ConsoleLog.Proofs.ColorModes
import ConsoleLog.Proofs.Session

/-!
# Flushes that fail

A flush comes after its line, so that a record whose flush fails has that line on the device and
nothing behind it. Of a device without a limit, no other call fails: a batch writes its records as
wholes up to the failing flush, and the colors from before are there again when a line is written.
-/

namespace ConsoleLog

/-- No flush with a number from `n` on and below `k` fails. -/
def FlushesPass (flushFaults : List Nat) (n k : Nat) : Prop := ∀ i, n ≤ i → i < k → i ∉ flushFaults

theorem FlushesPass.append {flushFaults : List Nat} {n k l : Nat} (h : FlushesPass flushFaults n k)
    (h' : FlushesPass flushFaults k l) : FlushesPass flushFaults n l := by
  intro i hn hl
  by_cases hk : i < k
  · exact h i hn hk
  · exact h' i (by omega) hl

theorem flushesPass_self (flushFaults : List Nat) (n : Nat) : FlushesPass flushFaults n n := by
  intro i hn hl
  omega

/-! ## Calls -/

namespace Terminal

variable {s s' : Terminal}

theorem fits_of_no_capacity (h : s.device.capacity = none) (bytes : List UInt8) :
    s.device.fits bytes = true := by
  simp [Device.fits, h]

theorem perform_line (h : s.device.capacity = none) (text : String) :
    s.perform (.line text) =
      (if s.device.flushes ∈ s.device.flushFaults then .failed "flush failed" else .done,
        s.accept [.line text]) := by
  apply perform_line_of_fits
  · exact fits_of_no_capacity h _
  · simp [Device.fits, h]

theorem perform_of_not_line (h : s.device.capacity = none) {c : Call} (hc : c.isLine = false) :
    s.perform c = (.done, s.accept [c]) :=
  perform_of_fits hc (fits_of_no_capacity h _)

theorem perform_snd (h : s.device.capacity = none) (c : Call) : (s.perform c).2 = s.accept [c] := by
  cases hc : c.isLine with
  | true =>
    cases c with
    | line t => rw [perform_line h]
    | _ => cases hc
  | false => rw [perform_of_not_line h hc]

theorem performAll_of_no_lines (h : s.device.capacity = none) {cs : List Call}
    (hcs : ∀ c ∈ cs, c.isLine = false) : Sink.performAll s cs = (.done, s.accept cs) := by
  induction cs generalizing s with
  | nil => rw [accept_nil, Sink.performAll]
  | cons c cs ih =>
    have hc : Sink.perform s c = (.done, s.accept [c]) := perform_of_not_line h (hcs c (by simp))
    rw [Sink.performAll_cons_of_done hc, ih (by exact h) fun d hd => hcs d (by simp [hd]),
      ← accept_append]
    rfl

theorem flushes_accept_lines (s : Terminal) (texts : List String) :
    (s.accept (texts.map .line)).device.flushes = s.device.flushes + texts.length := by
  have hall : (texts.map Call.line).countP Call.isLine = texts.length := by
    rw [List.countP_map, List.countP_eq_length.mpr]
    intro text _
    rfl
  simp only [accept, hall]

/-- Lines are written up to and with the first whose flush fails. -/
theorem performAll_lines_cases (h : s.device.capacity = none) (texts : List String) :
    (Sink.performAll s (texts.map .line) = (.done, s.accept (texts.map .line)) ∧
      FlushesPass s.device.flushFaults s.device.flushes (s.device.flushes + texts.length)) ∨
    ∃ k, k < texts.length ∧
      Sink.performAll s (texts.map .line) =
        (.failed "flush failed", s.accept ((texts.take (k + 1)).map .line)) ∧
      s.device.flushes + k ∈ s.device.flushFaults ∧
      FlushesPass s.device.flushFaults s.device.flushes (s.device.flushes + k) := by
  induction texts generalizing s with
  | nil =>
    left
    rw [List.map_nil, accept_nil, Sink.performAll]
    exact ⟨rfl, flushesPass_self _ _⟩
  | cons text texts ih =>
    have hline : Sink.perform s (.line text) = _ := perform_line h text
    by_cases hfault : s.device.flushes ∈ s.device.flushFaults
    · right
      rw [if_pos hfault] at hline
      refine ⟨0, by simp, ?_, hfault, flushesPass_self _ _⟩
      rw [List.map_cons, Sink.performAll_cons_of_ne_done (by rw [hline]; simp), hline]
      rfl
    · rw [if_neg hfault] at hline
      have hfirst : FlushesPass s.device.flushFaults s.device.flushes (s.device.flushes + 1) := by
        intro i hn hl
        have hi : i = s.device.flushes := by omega
        rw [hi]
        exact hfault
      have hflushes : (s.accept [.line text]).device.flushes = s.device.flushes + 1 :=
        flushes_accept_lines s [text]
      have hcapacity : (s.accept [.line text]).device.capacity = none := h
      rw [List.map_cons, Sink.performAll_cons_of_done hline]
      rcases ih hcapacity with ⟨hall, hpass⟩ | ⟨k, hk, hall, hfails, hpass⟩
      · left
        rw [hflushes] at hpass
        rw [hall, ← accept_append, List.length_cons, Nat.add_comm texts.length 1, ← Nat.add_assoc]
        exact ⟨rfl, hfirst.append hpass⟩
      · right
        rw [hflushes] at hfails hpass
        refine ⟨k + 1, by simpa using hk, ?_, ?_, ?_⟩
        · rw [hall, ← accept_append]
          rfl
        · rwa [Nat.add_comm k 1, ← Nat.add_assoc]
        · rw [Nat.add_comm k 1, ← Nat.add_assoc]
          exact hfirst.append hpass

end Terminal

theorem Follows.accepted {s s' : Terminal} {as : List (Attempt Terminal)} (h : Follows s as s')
    (hs : s.device.capacity = none) : s' = s.accept (as.map (·.planned.call)) := by
  induction as generalizing s with
  | nil =>
    cases h
    exact (Terminal.accept_nil _).symm
  | cons a as ih =>
    obtain ⟨rfl, h⟩ := h
    have hafter : a.after = a.before.accept [a.planned.call] := Terminal.perform_snd hs _
    rw [hafter] at h
    rw [ih h (by exact hs), ← Terminal.accept_append]
    rfl

/-! ## Records -/

namespace Plan

theorem no_lines_timestamp {c : Settings} {clock : Time.Clock} {r : RecordView} {stamp : List Planned}
    (h : timestamp? c clock r = some stamp) : ∀ d ∈ calls stamp, d.isLine = false := by
  intro d hd
  obtain ⟨p, hp, rfl⟩ := List.mem_map.mp hd
  obtain ⟨text, rfl⟩ := eq_timestamp_of_mem h hp
  rfl

theorem no_lines_tag (c : Settings) (r : RecordView) (prior : ColorPair) :
    ∀ d ∈ calls (colored c r ++ restoring prior), d.isLine = false := by
  simp [calls, colored, restoring, Planned.call, Call.isLine]

/-- The calls of a record before its lines. -/
def head (c : Settings) (r : RecordView) (stamp : List Planned) (prior : ColorPair) : List Call :=
  calls stamp ++ calls (colored c r ++ restoring prior)

theorem no_lines_head {c : Settings} {clock : Time.Clock} {r : RecordView} {stamp : List Planned}
    (h : timestamp? c clock r = some stamp) (prior : ColorPair) :
    ∀ d ∈ head c r stamp prior, d.isLine = false := by
  intro d hd
  rcases List.mem_append.mp hd with hd | hd
  · exact no_lines_timestamp h d hd
  · exact no_lines_tag c r prior d hd

theorem recolorAll_head (c : Settings) (r : RecordView) (stamp : List Planned) (prior : ColorPair) :
    Call.recolorAll (head c r stamp prior) prior = prior := by
  rw [head, calls_append, Call.recolorAll_append, Call.recolorAll_append, recolorAll_restoring]

end Plan

namespace Terminal

variable {s : Terminal} {c : Settings} {clock : Time.Clock} {r : RecordView} {stamp : List Planned}

/-- Up to its lines a record is drawn without failing. -/
theorem record_of_no_capacity (h : s.device.capacity = none)
    (hstamp : Plan.timestamp? c clock r = some stamp) :
    let t := Trace.lines r (s.accept (Plan.head c r stamp s.colors))
    (Trace.record c clock r s).outcome = t.outcome ∧ (Trace.record c clock r s).sink = t.sink := by
  intro t
  have hcapacity : (s.accept (Plan.calls stamp)).device.capacity = none := h
  have hcolors : Sink.colors (s.accept (Plan.calls stamp)) = s.colors :=
    Call.recolorAll_of_written (Plan.written_timestamp hstamp) s.colors
  obtain ⟨hstamped, hsink⟩ := (Trace.runs_timestamp c hstamp s).completes
    (performAll_of_no_lines h (Plan.no_lines_timestamp hstamp))
  obtain ⟨htagged, htagSink⟩ := (Trace.runs_tag c r (s.accept (Plan.calls stamp))).completes
    (performAll_of_no_lines hcapacity (Plan.no_lines_tag c r _))
  obtain ⟨_, hrecordSink, hrecord⟩ := Trace.record_of_timestamp_done c hstamped
  rw [hcolors, ← accept_append] at htagSink
  rw [hrecord, hrecordSink, hsink, Trace.tagAndLines, Trace.andThen_of_done htagged, htagSink]
  exact ⟨rfl, rfl⟩

/-! ## What records write -/

section
variable (c : Settings) (m : ColorMode) (clock : Time.Clock) (r : RecordView)

/-- What the record writes on a device without a limit and without faults. -/
def block : List UInt8 := (Render.render c clock r (new m (.new none []))).sink.device.accepted

/-- What the record draws on a terminal in its own colors, with these of its lines. -/
def drawnTo (stamp : List Planned) (texts : List String) : List Char :=
  Call.drawnAll m (Plan.head c r stamp ownColors ++ texts.map .line)

/-- The bytes are the record's block up to the end of line `k`, which is not before the header is
written and the colors from before are set again. -/
def CutBehindLine (k : Nat) (bytes : List UInt8) : Prop :=
  k < r.lines.length ∧
  ∃ stamp, Plan.timestamp? c clock r = some stamp ∧
    bytes = Text.utf8 (drawnTo c m r stamp (r.lines.take (k + 1))) ∧
    block c m clock r = bytes ++ Text.utf8 (Call.drawnAll m ((r.lines.drop (k + 1)).map .line))

end

/-- No write fails, only flushes, and the terminal shows its own colors. -/
structure Ready (m : ColorMode) (flushFaults : List Nat) (s : Terminal) : Prop where
  capacity : s.device.capacity = none
  mode : s.mode = m
  flushFaults : s.device.flushFaults = flushFaults
  colors : s.colors = ownColors

theorem ready_new (m : ColorMode) (flushFaults : List Nat) :
    (new m (.new none flushFaults)).Ready m flushFaults := ⟨rfl, rfl, rfl, rfl⟩

variable {m : ColorMode} {flushFaults : List Nat}

theorem drawnTo_append (stamp : List Planned) (texts texts' : List String) :
    drawnTo c m r stamp (texts ++ texts') =
      drawnTo c m r stamp texts ++ Call.drawnAll m (texts'.map .line) := by
  rw [drawnTo, drawnTo, List.map_append, ← List.append_assoc, Call.drawnAll_append]

theorem recolorAll_lines (texts : List String) (p : ColorPair) :
    Call.recolorAll (texts.map .line) p = p := by
  apply Call.recolorAll_of_written
  intro d hd
  obtain ⟨text, _, rfl⟩ := List.mem_map.mp hd
  simp [Call.written?]

theorem flushes_accept_of_no_lines (s : Terminal) {cs : List Call}
    (hcs : ∀ d ∈ cs, d.isLine = false) : (s.accept cs).device.flushes = s.device.flushes := by
  have hnone : cs.countP Call.isLine = 0 := by
    simpa [List.countP_eq_zero] using hcs
  simp only [accept, hnone, Nat.add_zero]

/-- The terminal after the head of a record and some of its lines. -/
theorem Ready.accept_drawnTo (h : s.Ready m flushFaults)
    (hstamp : Plan.timestamp? c clock r = some stamp) (texts : List String) :
    let s' := (s.accept (Plan.head c r stamp s.colors)).accept (texts.map .line)
    s'.Ready m flushFaults ∧
      s'.device.accepted = s.device.accepted ++ Text.utf8 (drawnTo c m r stamp texts) ∧
      s'.device.flushes = s.device.flushes + texts.length := by
  intro s'
  refine ⟨⟨h.capacity, h.mode, h.flushFaults, ?_⟩, ?_, ?_⟩
  · show Call.recolorAll (texts.map .line) (Call.recolorAll (Plan.head c r stamp s.colors) _) = _
    rw [recolorAll_lines, Plan.recolorAll_head, h.colors]
  · show (_ ++ Text.utf8 (Call.drawnAll s.mode _)) ++ Text.utf8 (Call.drawnAll s.mode _) = _
    rw [List.append_assoc, ← Text.utf8_append, ← Call.drawnAll_append, h.mode, h.colors, drawnTo]
  · rw [flushes_accept_lines, flushes_accept_of_no_lines s (Plan.no_lines_head hstamp s.colors)]

/-- A record is written as a whole, or up to the end of the line whose flush fails. -/
theorem Ready.record_cases (h : s.Ready m flushFaults)
    (hstamp : Plan.timestamp? c clock r = some stamp) :
    let t := Trace.record c clock r s
    t.sink.Ready m flushFaults ∧
    ((t.outcome = .done ∧
      t.sink.device.accepted = s.device.accepted ++ Text.utf8 (drawnTo c m r stamp r.lines) ∧
      t.sink.device.flushes = s.device.flushes + r.lines.length ∧
      FlushesPass flushFaults s.device.flushes (s.device.flushes + r.lines.length)) ∨
    ∃ k, k < r.lines.length ∧ t.outcome = .failed (.sink "flush failed") ∧
      t.sink.device.accepted =
        s.device.accepted ++ Text.utf8 (drawnTo c m r stamp (r.lines.take (k + 1))) ∧
      t.sink.device.flushes = s.device.flushes + k + 1 ∧
      s.device.flushes + k ∈ flushFaults ∧
      FlushesPass flushFaults s.device.flushes (s.device.flushes + k)) := by
  intro t
  obtain ⟨hout, hsink⟩ := record_of_no_capacity h.capacity hstamp
  have hheadFlushes := flushes_accept_of_no_lines s (Plan.no_lines_head hstamp s.colors)
  have hheadFaults : (s.accept (Plan.head c r stamp s.colors)).device.flushFaults = flushFaults :=
    h.flushFaults
  have hcapacity : (s.accept (Plan.head c r stamp s.colors)).device.capacity = none := h.capacity
  have hcalls := performAll_lines_cases hcapacity r.lines
  rw [hheadFlushes, hheadFaults] at hcalls
  rw [Trace.lines] at hout hsink
  rcases hcalls with ⟨hall, hpass⟩ | ⟨k, hk, hall, hfails, hpass⟩
  · rw [hall] at hout hsink
    obtain ⟨hready, haccepted, hflushes⟩ := h.accept_drawnTo hstamp r.lines
    have hlast : t.sink = _ := hsink
    rw [hlast]
    exact ⟨hready, Or.inl ⟨hout, haccepted, hflushes, hpass⟩⟩
  · rw [hall] at hout hsink
    obtain ⟨hready, haccepted, hflushes⟩ := h.accept_drawnTo hstamp (r.lines.take (k + 1))
    rw [List.length_take_of_le (Nat.succ_le_of_lt hk)] at hflushes
    have hlast : t.sink = _ := hsink
    rw [hlast]
    exact ⟨hready, Or.inr ⟨k, hk, hout, haccepted, hflushes, hfails, hpass⟩⟩

theorem block_eq (c : Settings) (m : ColorMode) (hstamp : Plan.timestamp? c clock r = some stamp) :
    block c m clock r = Text.utf8 (drawnTo c m r stamp r.lines) := by
  obtain ⟨_, ⟨_, haccepted, _⟩ | ⟨_, _, _, _, _, hfails, _⟩⟩ :=
    (ready_new m []).record_cases hstamp
  · rw [Trace.toRun_record] at haccepted
    exact haccepted
  · cases hfails

theorem cutBehindLine (c : Settings) (m : ColorMode)
    (hstamp : Plan.timestamp? c clock r = some stamp) {k : Nat} (hk : k < r.lines.length) :
    CutBehindLine c m clock r k (Text.utf8 (drawnTo c m r stamp (r.lines.take (k + 1)))) := by
  refine ⟨hk, stamp, hstamp, rfl, ?_⟩
  rw [block_eq c m hstamp, ← Text.utf8_append, ← drawnTo_append, List.take_append_drop]

/-! ## Batches -/

def lineCount (rs : List RecordView) : Nat := (rs.flatMap RecordView.lines).length

theorem lineCount_cons (r : RecordView) (rs : List RecordView) :
    lineCount (r :: rs) = r.lines.length + lineCount rs := by
  rw [lineCount, List.flatMap_cons, List.length_append, lineCount]

section
variable (c : Settings) (m : ColorMode) (flushFaults : List Nat) (clock : Nat → Time.Clock)

def blocks : Nat → List RecordView → List UInt8
  | _, [] => []
  | i, r :: rs => block c m (clock i) r ++ blocks (i + 1) rs

variable (i : Nat) (rs : List RecordView) (s s' : Terminal)

/-- From `s` to `s'` all records are written as wholes and no flush fails. -/
structure WritesAll : Prop where
  accepted : s'.device.accepted = s.device.accepted ++ blocks c m clock i rs
  flushes : s'.device.flushes = s.device.flushes + lineCount rs
  pass : FlushesPass flushFaults s.device.flushes s'.device.flushes

/-- From `s` to `s'` the records before record `j` are written as wholes and record `j` up to the end
of its line `k`, whose flush is the first that fails. -/
structure WritesUpTo (j k : Nat) : Prop where
  accepted : ∃ r cut, rs[j]? = some r ∧ CutBehindLine c m (clock (i + j)) r k cut ∧
    s'.device.accepted = s.device.accepted ++ (blocks c m clock i (rs.take j) ++ cut)
  flushes : s'.device.flushes = s.device.flushes + (lineCount (rs.take j) + k) + 1
  fails : s.device.flushes + (lineCount (rs.take j) + k) ∈ flushFaults
  pass : FlushesPass flushFaults s.device.flushes
    (s.device.flushes + (lineCount (rs.take j) + k))

end

theorem WritesAll.cons {flushFaults : List Nat} {clock : Nat → Time.Clock} {i : Nat}
    {rs : List RecordView} {s s₁ s' : Terminal} (h : WritesAll c m flushFaults clock (i + 1) rs s₁ s')
    (haccepted : s₁.device.accepted = s.device.accepted ++ block c m (clock i) r)
    (hflushes : s₁.device.flushes = s.device.flushes + r.lines.length)
    (hpass : FlushesPass flushFaults s.device.flushes s₁.device.flushes) :
    WritesAll c m flushFaults clock i (r :: rs) s s' := by
  refine ⟨?_, ?_, hpass.append h.pass⟩
  · rw [h.accepted, haccepted, blocks, List.append_assoc]
  · rw [h.flushes, hflushes, lineCount_cons, Nat.add_assoc]

theorem WritesUpTo.cons {flushFaults : List Nat} {clock : Nat → Time.Clock} {i j k : Nat}
    {rs : List RecordView} {s s₁ s' : Terminal}
    (h : WritesUpTo c m flushFaults clock (i + 1) rs s₁ s' j k)
    (haccepted : s₁.device.accepted = s.device.accepted ++ block c m (clock i) r)
    (hflushes : s₁.device.flushes = s.device.flushes + r.lines.length)
    (hpass : FlushesPass flushFaults s.device.flushes s₁.device.flushes) :
    WritesUpTo c m flushFaults clock i (r :: rs) s s' (j + 1) k := by
  have hnumber : s.device.flushes + (lineCount ((r :: rs).take (j + 1)) + k) =
      s₁.device.flushes + (lineCount (rs.take j) + k) := by
    rw [List.take_succ_cons, lineCount_cons, hflushes]
    omega
  refine ⟨?_, ?_, ?_, ?_⟩
  · obtain ⟨q, cut, hq, hcut, hwritten⟩ := h.accepted
    rw [Nat.add_assoc, Nat.add_comm 1 j] at hcut
    refine ⟨q, cut, hq, hcut, ?_⟩
    rw [hwritten, haccepted, List.take_succ_cons, blocks, List.append_assoc, List.append_assoc]
  · rw [hnumber]
    exact h.flushes
  · rw [hnumber]
    exact h.fails
  · rw [hnumber]
    exact hpass.append h.pass

theorem Ready.batch_cases {clock : Nat → Time.Clock} {i : Nat} {rs : List RecordView}
    (h : s.Ready m flushFaults)
    (hstamps : ∀ (j : Nat) (r : RecordView), rs[j]? = some r →
      Plan.timestamp? c (clock (i + j)) r ≠ none) :
    let t := Trace.batch c clock i s rs
    t.sink.Ready m flushFaults ∧
    ((t.outcome = .done ∧ WritesAll c m flushFaults clock i rs s t.sink) ∨
    ∃ j k, t.outcome = .failed ⟨i + j, .sink "flush failed"⟩ ∧
      WritesUpTo c m flushFaults clock i rs s t.sink j k) := by
  induction rs generalizing i s with
  | nil => exact ⟨h, Or.inl ⟨rfl, (List.append_nil _).symm, rfl, flushesPass_self _ _⟩⟩
  | cons r rs ih =>
    intro t
    obtain ⟨stamp, hstamp⟩ := Option.ne_none_iff_exists'.mp (hstamps 0 r rfl)
    obtain ⟨hready, ⟨hout, haccepted, hflushes, hpass⟩ |
      ⟨k, hk, hout, haccepted, hflushes, hfails, hpass⟩⟩ := h.record_cases hstamp
    · -- the record is written as a whole and the rest decides
      have hdone : ((Trace.record c (clock i) r s).mapError (ExportError.mk i)).outcome = .done :=
        congrArg (Outcome.map _) hout
      have ht : t = _ := Trace.andThen_of_done hdone _
      have hrest : ∀ (j : Nat) (q : RecordView), rs[j]? = some q →
          Plan.timestamp? c (clock (i + 1 + j)) q ≠ none := by
        intro j q hq
        rw [Nat.add_assoc, Nat.add_comm 1 j]
        exact hstamps (j + 1) q hq
      rw [← block_eq c m hstamp] at haccepted
      rw [← hflushes] at hpass
      rw [ht]
      obtain ⟨hlast, hall⟩ := ih hready hrest
      refine ⟨hlast, ?_⟩
      rcases hall with ⟨hrestOut, hw⟩ | ⟨j, k, hrestOut, hw⟩
      · exact Or.inl ⟨hrestOut, hw.cons haccepted hflushes hpass⟩
      · right
        rw [Nat.add_assoc, Nat.add_comm 1 j] at hrestOut
        exact ⟨j + 1, k, hrestOut, hw.cons haccepted hflushes hpass⟩
    · -- the record is cut and ends the batch
      have hne : ((Trace.record c (clock i) r s).mapError (ExportError.mk i)).outcome =
          .failed ⟨i, .sink "flush failed"⟩ := congrArg (Outcome.map _) hout
      have ht : t = _ := Trace.andThen_of_ne_done (by rw [hne]; simp) _
      rw [ht]
      have hnumber : s.device.flushes + (lineCount ((r :: rs).take 0) + k) = s.device.flushes + k := by
        rw [List.take_zero, lineCount, List.flatMap_nil, List.length_nil, Nat.zero_add]
      refine ⟨hready, Or.inr ⟨0, k, hne, ⟨r, _, rfl, cutBehindLine c m hstamp hk, haccepted⟩, ?_,
        ?_, ?_⟩⟩
      · rw [hnumber]
        exact hflushes
      · rw [hnumber]
        exact hfails
      · rw [hnumber]
        exact hpass

end Terminal

/-! ## Sessions -/

namespace Exporter

variable {c : Settings} {m : ColorMode} {flushFaults : List Nat}

/-- Every record of the session has a text for its timestamp, or needs none. -/
def StampsDraw (c : Settings) (clock : Nat → Nat → Time.Clock) (batches : List (List RecordView)) :
    Prop :=
  ∀ (n i : Nat) (rs : List RecordView) (r : RecordView), batches[n]? = some rs → rs[i]? = some r →
    Plan.timestamp? c (clock n i) r ≠ none

theorem StampsDraw.head {clock : Nat → Nat → Time.Clock} {rs : List RecordView}
    {batches : List (List RecordView)} (h : StampsDraw c clock (rs :: batches)) (j : Nat)
    (r : RecordView) (hr : rs[j]? = some r) : Plan.timestamp? c (clock 0 (0 + j)) r ≠ none := by
  rw [Nat.zero_add]
  exact h 0 j rs r rfl hr

theorem StampsDraw.take {clock : Nat → Nat → Time.Clock} {batches : List (List RecordView)}
    (h : StampsDraw c clock batches) (n : Nat) : StampsDraw c clock (batches.take n) := by
  intro k i rs r hrs hr
  rw [List.getElem?_take] at hrs
  split at hrs
  · exact h k i rs r hrs hr
  · cases hrs

theorem ready_after {clock : Nat → Nat → Time.Clock} {batches : List (List RecordView)}
    {e : Exporter Terminal} (h : e.sink.Ready m flushFaults)
    (hstamps : StampsDraw e.settings clock batches) :
    (e.after clock (batches.map .exportBatch)).sink.Ready m flushFaults := by
  induction batches generalizing clock e with
  | nil => exact h
  | cons rs batches ih =>
    obtain ⟨hready, _⟩ := h.batch_cases hstamps.head
    rw [List.map_cons, after]
    apply ih
    · rw [step_sink]
      exact hready
    · rw [step_settings]
      exact fun n i qs r hqs => hstamps (n + 1) i qs r hqs

theorem session_getElem?_batch (clock : Nat → Nat → Time.Clock) (e : Exporter Terminal)
    {batches : List (List RecordView)} {n : Nat} {rs : List RecordView} (h : batches[n]? = some rs) :
    (e.session clock (batches.map .exportBatch))[n]? =
      some ((e.after clock ((batches.take n).map .exportBatch)).step (clock n) (.exportBatch rs)) := by
  obtain ⟨hlt, hget⟩ := List.getElem?_eq_some_iff.mp h
  have hsplit : batches = batches.take n ++ rs :: batches.drop (n + 1) := by
    rw [← hget, ← List.drop_eq_getElem_cons hlt, List.take_append_drop]
  have hlength : ((batches.take n).map Operation.exportBatch).length = n := by
    rw [List.length_map, List.length_take_of_le (Nat.le_of_lt hlt)]
  have hst := session_getElem?_length clock e ((batches.take n).map .exportBatch)
    ((batches.drop (n + 1)).map .exportBatch) (.exportBatch rs)
  rwa [← List.map_cons, ← List.map_append, ← hsplit, hlength] at hst

/-- Of a session of batches on a fresh terminal whose device has no limit, each batch either succeeds,
with all of its records written and no flush failing, or ends with the first flush that fails: with the
records before written as wholes, the record of that flush up to the end of the line, and nothing of the
records after it. The flushes are the lines that were tried, and the terminal's own colors are there
again either way. -/
theorem session_cuts_behind_failed_flush (c : Settings) (m : ColorMode) (flushFaults : List Nat)
    (clock : Nat → Nat → Time.Clock) {batches : List (List RecordView)}
    (hstamps : StampsDraw c clock batches) {n : Nat} {rs : List RecordView}
    (hn : batches[n]? = some rs) :
    let e : Exporter Terminal := ⟨c, .new (.new m (.new none flushFaults)), false⟩
    let prior := e.after clock ((batches.take n).map .exportBatch)
    let made := prior.attempts (clock n) (.exportBatch rs)
    ∃ st, (e.session clock (batches.map .exportBatch))[n]? = some st ∧
      Follows prior.sink made st.exporter.sink ∧
      ((st.reply = .batch .done ∧
          prior.sink.WritesAll c m flushFaults (clock n) 0 rs st.exporter.sink) ∨
        ∃ j k, st.reply = .batch (.failed ⟨j, .sink "flush failed"⟩) ∧
          prior.sink.WritesUpTo c m flushFaults (clock n) 0 rs st.exporter.sink j k) ∧
      st.exporter.sink.device.flushes =
        prior.sink.device.flushes + made.countP (·.planned.call.isLine) ∧
      st.exporter.sink.colors = ownColors := by
  intro e prior made
  have hst := session_getElem?_batch clock e hn
  have hprior : prior.sink.Ready m flushFaults :=
    ready_after (Terminal.ready_new m flushFaults) (hstamps.take n)
  have hsettings : prior.settings = c := settings_after clock e _
  have hfollows : Follows prior.sink made (prior.step (clock n) (.exportBatch rs)).exporter.sink := by
    rw [step_sink]
    exact Trace.follows_batch _ _ _ _ _
  have hbatch : ∀ (j : Nat) (r : RecordView), rs[j]? = some r →
      Plan.timestamp? c (clock n (0 + j)) r ≠ none := by
    intro j r hr
    rw [Nat.zero_add]
    exact hstamps n j rs r hn hr
  obtain ⟨hready, hwritten⟩ := hprior.batch_cases hbatch
  refine ⟨_, hst, hfollows, ?_, ?_, ?_⟩
  · rw [step_exportBatch, hsettings]
    simp only [sink_mk, Lock.value_release]
    rcases hwritten with ⟨hout, hall⟩ | ⟨j, k, hout, hcut⟩
    · left
      exact ⟨congrArg Reply.batch hout, hall⟩
    · right
      rw [Nat.zero_add] at hout
      exact ⟨j, k, congrArg Reply.batch hout, hcut⟩
  · rw [hfollows.accepted hprior.capacity]
    show _ + (made.map (·.planned.call)).countP Call.isLine = _
    rw [List.countP_map]
    rfl
  · rw [step_sink, hsettings]
    exact hready.colors

/-- The fourth flush fails, which is that of the second record's header. -/
theorem session_cuts_behind_failed_flush_header :
    let format : Time.Format := ⟨"%H ", [.number .hour .zeros, .literal ' '], by decide⟩
    let c : Settings := ⟨some format, true, .standard⟩
    let clock : Nat → Nat → Time.Clock := fun _ _ => ⟨.epoch, 0⟩
    let r : RecordView := ⟨.level .warning, "App", 7, some "m", none, some "a", none⟩
    let e : Exporter Terminal := ⟨c, .new (.new .full (.new none [3])), false⟩
    let batches := [[r, r, r], [r]]
    StampsDraw c clock batches ∧
    ∃ st, (e.session clock (batches.map .exportBatch))[0]? = some st ∧
      st.reply = .batch (.failed ⟨1, .sink "flush failed"⟩) ∧
      e.sink.WritesUpTo c .full [3] (clock 0) 0 [r, r, r] st.exporter.sink 1 0 ∧
      st.exporter.sink.colors = ownColors := by
  intro format c clock r e batches
  have hstamps : StampsDraw c clock batches := by
    intro n i rs q hrs hq
    have hmem : ∀ rs ∈ batches, ∀ q ∈ rs, q = r := by simp [batches]
    rw [hmem rs (List.mem_of_getElem? hrs) q (List.mem_of_getElem? hq)]
    show Plan.timestamp? c ⟨.epoch, 0⟩ r ≠ none
    decide
  obtain ⟨st, hst, _, hcases, _, hcolors⟩ :=
    session_cuts_behind_failed_flush c .full [3] clock hstamps (n := 0) rfl
  have hreply : (e.session clock (batches.map .exportBatch))[0]?.map (·.reply) =
      some (.batch (.failed ⟨1, .sink "flush failed"⟩)) := by decide
  have hcount : (e.session clock (batches.map .exportBatch))[0]?.map
      (·.exporter.sink.device.flushes) = some 4 := by decide
  rw [show (e.session clock _)[0]? = _ from hst, Option.map_some, Option.some.injEq] at hreply hcount
  refine ⟨hstamps, st, hst, hreply, ?_, hcolors⟩
  rcases hcases with ⟨hdone, _⟩ | ⟨j, k, hfailed, hcut⟩
  · rw [hdone] at hreply
    cases hreply
  · rw [hfailed] at hreply
    cases hreply
    -- the first record has three lines
    have hnumber : 4 = 0 + (3 + k) + 1 := hcount.symm.trans hcut.flushes
    have hk : k = 0 := by omega
    rw [hk] at hcut
    exact hcut

end Exporter

end ConsoleLog
