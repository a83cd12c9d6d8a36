import ConsoleLog.Proofs.Output

/-!
# Reading a transcript back

Without timestamps and colors, what records write can be read back: a line that does not start with a
space is a header, the line after it holds the message, and the indented lines from there to the next
header are the lines of the exception. The category ends at the last opening bracket of its header,
since an event id holds none.
-/

namespace ConsoleLog

namespace Transcript

structure Header where
  severity : Severity
  category : String
  eventId : Int64
  deriving DecidableEq

structure Entry where
  header : Header
  message : String
  exceptionLines : List String
  deriving DecidableEq

def Entry.ofRecord (r : RecordView) : Entry :=
  ⟨⟨r.shownSeverity, r.category, r.eventId⟩, r.message, r.exceptionLines⟩

/-! ## Reading -/

def named? (cs : List Char) : Option (String × Int64) :=
  match cs.reverse with
  | ']' :: back =>
    -- an event id holds no bracket, so the last one ends the category
    let id := (back.takeWhile (· ≠ '[')).reverse
    let category := ((back.dropWhile (· ≠ '[')).drop 1).reverse
    (Text.integer? id).map fun z => (String.ofList category, Int64.ofInt z)
  | _ => none

def header? (line : List Char) : Option Header :=
  match Severity.all.find? fun s => (s.tag ++ ": ").toList.isPrefixOf line with
  | some s => (named? (line.drop 6)).map fun n => ⟨s, n.1, n.2⟩
  | none => none

/-- The entries of lines, behind the indented lines that no header stands before. -/
def entries? : List (List Char) → Option (List String × List Entry)
  | [] => some ([], [])
  | line :: rest =>
    match entries? rest with
    | none => none
    | some (indented, entries) =>
      if line.head? = some ' ' then some (String.ofList (line.drop 6) :: indented, entries)
      else
        match header? line, indented with
        | some h, message :: exceptionLines => some ([], ⟨h, message, exceptionLines⟩ :: entries)
        | _, _ => none

/-- Every line is ended, so behind the last line feed nothing may stand. -/
def read? (out : List UInt8) : Option (List Entry) :=
  match Text.chars? out with
  | none => none
  | some cs =>
    let pieces := cs.splitOn '\n'
    if pieces.getLast? = some [] then
      match entries? pieces.dropLast with
      | some ([], entries) => some entries
      | _ => none
    else none

/-! ## Lines -/

def Header.line (h : Header) : List Char :=
  (h.severity.tag ++ ": " ++ h.category ++ "[" ++ Value.intText h.eventId ++ "]").toList

def Entry.lines (x : Entry) : List (List Char) :=
  x.header.line :: (RecordView.padding ++ x.message).toList ::
    x.exceptionLines.map fun line => (RecordView.padding ++ line).toList

/-- The lines, each ended by a line feed. -/
def ended (lines : List (List Char)) : List Char := lines.flatMap (· ++ ['\n'])

theorem named?_eq (category : String) (id : Int64) :
    named? (category ++ "[" ++ Value.intText id ++ "]").toList = some (category, id) := by
  have hid : ∀ c ∈ (Value.intText id).toList.reverse, decide (c ≠ '[') = true := by
    intro c hc
    refine decide_eq_true fun hbracket => ?_
    rw [hbracket] at hc
    rcases Value.mem_intText (List.mem_reverse.mp hc) with hc | hc <;> cases hc
  have hback : (category ++ "[" ++ Value.intText id ++ "]").toList.reverse =
      ']' :: ((Value.intText id).toList.reverse ++ '[' :: category.toList.reverse) := by
    simp
  rw [named?, hback]
  simp only [List.takeWhile_append_of_pos hid, List.dropWhile_append_of_pos hid]
  simp [Value.intText, Text.integer?_signed]

theorem header?_line (h : Header) : header? h.line = some h := by
  obtain ⟨severity, category, id⟩ := h
  have hline : Header.line ⟨severity, category, id⟩ =
      (severity.tag ++ ": ").toList ++ (category ++ "[" ++ Value.intText id ++ "]").toList := by
    simp [Header.line, String.append_assoc]
  have hfound : Severity.all.find? (fun s => (s.tag ++ ": ").toList.isPrefixOf
      (Header.line ⟨severity, category, id⟩)) = some severity := by
    rw [hline]
    cases severity <;> rfl
  have hdrop : (Header.line ⟨severity, category, id⟩).drop 6 =
      (category ++ "[" ++ Value.intText id ++ "]").toList := by
    rw [hline]
    cases severity <;> rfl
  rw [header?, hfound]
  simp only [hdrop, named?_eq, Option.map_some]

theorem head?_line (h : Header) : h.line.head? ≠ some ' ' := by
  obtain ⟨severity, category, id⟩ := h
  cases severity <;> simp [Header.line, Severity.tag]

theorem entries?_indented {lines : List (List Char)} {texts : List String} {es : List Entry}
    (h : entries? lines = some (texts, es)) (text : String) :
    entries? ((RecordView.padding ++ text).toList :: lines) = some (text :: texts, es) := by
  have hhead : (RecordView.padding ++ text).toList.head? = some ' ' := by
    simp [RecordView.padding]
  have hdrop : (RecordView.padding ++ text).toList.drop 6 = text.toList := by
    simp [RecordView.padding]
  rw [entries?, h]
  simp only [if_pos hhead, hdrop, String.ofList_toList]

theorem entries?_lines (es : List Entry) : entries? (es.flatMap Entry.lines) = some ([], es) := by
  induction es with
  | nil => rfl
  | cons x es ih =>
    have htexts : ∀ texts : List String,
        entries? ((texts.map fun text => (RecordView.padding ++ text).toList) ++
          es.flatMap Entry.lines) = some (texts, es) := by
      intro texts
      induction texts with
      | nil => exact ih
      | cons text texts ihTexts => exact entries?_indented ihTexts text
    -- the lines behind the header of `x` are its message and its exception, all indented
    have hbody := htexts (x.message :: x.exceptionLines)
    have hx : (x :: es).flatMap Entry.lines = x.header.line ::
        (((x.message :: x.exceptionLines).map fun text => (RecordView.padding ++ text).toList) ++
          es.flatMap Entry.lines) := rfl
    rw [hx, entries?, hbody]
    simp only [if_neg (head?_line x.header), header?_line]

theorem ended_append (ls ms : List (List Char)) : ended (ls ++ ms) = ended ls ++ ended ms := by
  simp [ended]

theorem splitOn_ended {lines : List (List Char)} (h : ∀ line ∈ lines, '\n' ∉ line) :
    (ended lines).splitOn '\n' = lines ++ [[]] := by
  induction lines with
  | nil => rfl
  | cons line lines ih =>
    have hline := h line List.mem_cons_self
    rw [ended, List.flatMap_cons, List.append_assoc, List.singleton_append,
      List.splitOn_append_cons_self_of_not_mem hline]
    exact congrArg _ (ih fun l hl => h l (List.mem_cons_of_mem _ hl))

theorem read?_ended {es : List Entry} (h : ∀ line ∈ es.flatMap Entry.lines, '\n' ∉ line) :
    read? (Text.utf8 (ended (es.flatMap Entry.lines))) = some es := by
  simp [read?, Text.chars?_utf8, splitOn_ended h, entries?_lines]

end Transcript

open Transcript

/-! ## What records write -/

/-- Of the exception nothing is asked: it is cut at its line feeds. -/
structure RecordView.OneLined (r : RecordView) : Prop where
  category : '\n' ∉ r.category.toList
  message : '\n' ∉ r.message.toList

theorem RecordView.mem_exceptionLines {r : RecordView} {line : String} (h : line ∈ r.exceptionLines) :
    ∃ text, r.exception = some text ∧ line ∈ Text.transcriptLines text := by
  unfold exceptionLines at h
  cases hr : r.exception with
  | none =>
    rw [hr] at h
    cases h
  | some text =>
    rw [hr] at h
    exact ⟨text, rfl, h⟩

theorem RecordView.OneLined.not_mem_lines {r : RecordView} (h : r.OneLined) {line : String}
    (hline : line ∈ r.lines) : '\n' ∉ line.toList := by
  intro hmem
  rcases mem_lines hline hmem with hown | hcategory | hmessage | ⟨text, htext, hmem⟩
  · cases hown
  · exact h.category hcategory
  · exact h.message hmessage
  · obtain ⟨_, _, hpiece⟩ := mem_exceptionLines htext
    cases Text.isBreak_eq_false_of_mem_transcriptLines hpiece hmem

/-- The lines of a record's entry are the record's own, the first of them behind the tag. -/
theorem Transcript.lines_ofRecord (r : RecordView) :
    (Entry.ofRecord r).lines =
      (r.shownSeverity.tag ++ r.headerRest).toList :: r.lines.tail.map String.toList := by
  simp [Entry.lines, Entry.ofRecord, Header.line, RecordView.lines, RecordView.headerRest,
    String.append_assoc]

theorem RecordView.OneLined.lineFeed_not_mem {r : RecordView} (h : r.OneLined) :
    ∀ line ∈ (Entry.ofRecord r).lines, '\n' ∉ line := by
  rw [lines_ofRecord]
  intro line hline
  rcases List.mem_cons.mp hline with rfl | hline
  · intro hmem
    rw [String.toList_append] at hmem
    rcases List.mem_append.mp hmem with htag | hrest
    · cases Severity.isLower_of_mem_tag htag
    · exact h.not_mem_lines List.mem_cons_self hrest
  · obtain ⟨text, htext, rfl⟩ := List.mem_map.mp hline
    exact h.not_mem_lines (List.mem_of_mem_tail htext)

namespace Plan

theorem drawn_ofRecord {c : Settings} (hc : c.format = none) (clock : Time.Clock) (r : RecordView)
    (prior : ColorPair) :
    ∃ plan, ofRecord? c clock r prior = some plan ∧
      Call.drawnAll .disabled (calls plan) = ended (Entry.ofRecord r).lines := by
  have hstamp : timestamp? c clock r = some [] := by
    rw [timestamp?, hc]
  have htag : Call.drawnAll .disabled (calls (colored c r) ++ calls (restoring prior)) =
      r.shownSeverity.tag.toList := List.append_nil _
  have hlines : Call.drawnAll .disabled (r.lines.map .line) = ended (r.lines.map String.toList) := by
    rw [Call.drawnAll, ended, List.flatMap_map, List.flatMap_map]
    rfl
  refine ⟨colored c r ++ restoring prior ++ lines r, by rw [ofRecord?, hstamp]; rfl, ?_⟩
  rw [calls_append, calls_append, Call.drawnAll_append, htag, calls_lines, hlines, lines_ofRecord]
  simp [ended, RecordView.lines]

theorem drawn_ofRecords {c : Settings} (hc : c.format = none) (clock : Nat → Time.Clock)
    (prior : ColorPair) (i : Nat) (rs : List RecordView) :
    Call.drawnAll .disabled (calls (ofRecords c clock prior i rs)) =
      ended ((rs.map Entry.ofRecord).flatMap Entry.lines) := by
  induction rs generalizing i with
  | nil => rfl
  | cons r rs ih =>
    obtain ⟨plan, hplan, hdrawn⟩ := drawn_ofRecord hc (clock i) r prior
    rw [ofRecords, hplan]
    simp only
    rw [calls_append, Call.drawnAll_append, hdrawn, ih, List.map_cons, List.flatMap_cons, ended_append]

end Plan

namespace Exporter

/-- No timestamps, no colors, and a device that takes all. -/
structure WritesTranscript (e : Exporter Terminal) : Prop where
  format : e.settings.format = none
  mode : e.sink.mode = .disabled
  unlimited : e.sink.Unlimited

theorem accepted_exportBatch {e : Exporter Terminal} (h : e.WritesTranscript)
    (clock : Nat → Time.Clock) (rs : List RecordView) :
    (e.step clock (.exportBatch rs)).exporter.sink.device.accepted = e.sink.device.accepted ++
      Text.utf8 (ended ((rs.map Entry.ofRecord).flatMap Entry.lines)) := by
  rw [sink_exportBatch_of_unlimited clock e h.unlimited, Terminal.accept, h.mode,
    Plan.drawn_ofRecords h.format]

/-- What a batch writes is read back as its records, so batches that write the same have the same
tags, categories, event ids, messages and lines of exceptions, record by record. -/
theorem transcript_unambiguous {e e' : Exporter Terminal} (h : e.WritesTranscript)
    (h' : e'.WritesTranscript) (clock clock' : Nat → Time.Clock) {rs rs' : List RecordView}
    (hrs : ∀ r ∈ rs, r.OneLined) (hrs' : ∀ r ∈ rs', r.OneLined) :
    ∃ out out',
      (e.step clock (.exportBatch rs)).exporter.sink.device.accepted =
        e.sink.device.accepted ++ out ∧
      (e'.step clock' (.exportBatch rs')).exporter.sink.device.accepted =
        e'.sink.device.accepted ++ out' ∧
      read? out = some (rs.map Entry.ofRecord) ∧ read? out' = some (rs'.map Entry.ofRecord) ∧
      (out = out' → rs.map Entry.ofRecord = rs'.map Entry.ofRecord) := by
  have hread : ∀ qs : List RecordView, (∀ r ∈ qs, r.OneLined) →
      read? (Text.utf8 (ended ((qs.map Entry.ofRecord).flatMap Entry.lines))) =
        some (qs.map Entry.ofRecord) := by
    intro qs hqs
    apply read?_ended
    intro line hline
    obtain ⟨x, hx, hline⟩ := List.mem_flatMap.mp hline
    obtain ⟨r, hr, rfl⟩ := List.mem_map.mp hx
    exact (hqs r hr).lineFeed_not_mem line hline
  refine ⟨_, _, accepted_exportBatch h clock rs, accepted_exportBatch h' clock' rs', hread rs hrs,
    hread rs' hrs', fun heq => ?_⟩
  have hsame := congrArg read? heq
  rw [hread rs hrs, hread rs' hrs'] at hsame
  exact Option.some.inj hsame

theorem transcript_unambiguous_headers_inside :
    let e : Exporter Terminal := ⟨⟨none, true, .standard⟩, .new (.new .disabled (.new none [])), false⟩
    let clock : Nat → Time.Clock := fun _ => ⟨.epoch, 0⟩
    let r : RecordView :=
      ⟨.level .warning, "App: [3]", -7, some "info: App[7]", none, some "fail: App[1]\n      at g", none⟩
    let blank : RecordView := ⟨.number 0, "", 0, none, none, none, none⟩
    e.WritesTranscript ∧ (∀ q ∈ [r, blank], q.OneLined) ∧
    read? (e.step clock (.exportBatch [r, blank])).exporter.sink.device.accepted =
      some [⟨⟨.warn, "App: [3]", -7⟩, "info: App[7]", ["fail: App[1]", "      at g"]⟩,
        ⟨⟨.unknown, "", 0⟩, "", []⟩] := by
  intro e clock r blank
  have he : e.WritesTranscript := ⟨rfl, rfl, Terminal.unlimited_new .disabled⟩
  have hr : r.OneLined := ⟨by decide, by decide⟩
  have hblank : blank.OneLined := ⟨by decide, by decide⟩
  have hall : ∀ q ∈ [r, blank], q.OneLined := by
    simp [hr, hblank]
  obtain ⟨out, _, hout, _, hread, _⟩ := transcript_unambiguous he he clock clock hall hall
  have hstart : e.sink.device.accepted = [] := rfl
  rw [hstart, List.nil_append] at hout
  have hentries : [r, blank].map Entry.ofRecord =
      [⟨⟨.warn, "App: [3]", -7⟩, "info: App[7]", ["fail: App[1]", "      at g"]⟩,
        ⟨⟨.unknown, "", 0⟩, "", []⟩] := by decide
  rw [hout, hread, hentries]
  exact ⟨he, hall, rfl⟩

end Exporter

end ConsoleLog
