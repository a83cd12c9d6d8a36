import ConsoleLog.Proofs.Trimming
import ConsoleLog.Record
import Mathlib.Data.List.Forall2

/-!
# Names of levels

A level is read from its names, in letters of either case and with blanks around them, and from
nothing else. A record's severity is the level that its severity text names, whatever its number.
-/

namespace ConsoleLog

open Text (isBlank trim lower)

namespace Text

/-! ## Letters in either case -/

/-- The same character, or the same ASCII letter in the other case. -/
inductive SameLetter (c d : Char) : Prop
  | same : c = d → SameLetter c d
  | upper : c.isUpper = true → d.toNat = c.toNat + 32 → SameLetter c d
  | lower : d.isUpper = true → c.toNat = d.toNat + 32 → SameLetter c d

def SameLetters (cs ds : List Char) : Prop := List.Forall₂ SameLetter cs ds

theorem isUpper_iff {c : Char} : c.isUpper = true ↔ 65 ≤ c.toNat ∧ c.toNat ≤ 90 := by
  show decide (c.val ≥ 'A'.val ∧ c.val ≤ 'Z'.val) = true ↔ _
  rw [decide_eq_true_iff]
  rfl

theorem isLower_iff {c : Char} : c.isLower = true ↔ 97 ≤ c.toNat ∧ c.toNat ≤ 122 := by
  show (decide (c.val ≥ 'a'.val) && decide (c.val ≤ 'z'.val)) = true ↔ _
  rw [Bool.and_eq_true, decide_eq_true_iff, decide_eq_true_iff]
  rfl

theorem toNat_toLower (c : Char) :
    c.toLower.toNat = if c.isUpper then c.toNat + 32 else c.toNat := by
  have hrange : c.isUpper = true ↔ c.val ≥ 'A'.val ∧ c.val ≤ 'Z'.val := decide_eq_true_iff
  unfold Char.toLower
  by_cases h : c.isUpper = true
  · have hnat := isUpper_iff.mp h
    rw [if_pos h, dif_pos (hrange.mp h)]
    show (c.val + 32).toNat = _
    rw [UInt32.toNat_add]
    show (c.toNat + 32) % 2 ^ 32 = _
    omega
  · rw [if_neg h, dif_neg (mt hrange.mpr h)]

theorem sameLetter_iff {c d : Char} : SameLetter c d ↔ c.toLower = d.toLower := by
  rw [← Char.toNat_inj, toNat_toLower, toNat_toLower]
  constructor
  · intro h
    cases h with
    | same h => rw [h]
    | upper hc h =>
      have hrange := isUpper_iff.mp hc
      have hd : ¬ d.isUpper = true := by
        rw [isUpper_iff]
        omega
      rw [if_pos hc, if_neg hd, h]
    | lower hd h =>
      have hrange := isUpper_iff.mp hd
      have hc : ¬ c.isUpper = true := by
        rw [isUpper_iff]
        omega
      rw [if_neg hc, if_pos hd, h]
  · intro h
    by_cases hc : c.isUpper = true
    · by_cases hd : d.isUpper = true
      · rw [if_pos hc, if_pos hd] at h
        exact .same (Char.toNat_inj.mp (by omega))
      · rw [if_pos hc, if_neg hd] at h
        exact .upper hc h.symm
    · by_cases hd : d.isUpper = true
      · rw [if_neg hc, if_pos hd] at h
        exact .lower hd h
      · rw [if_neg hc, if_neg hd] at h
        exact .same (Char.toNat_inj.mp h)

theorem sameLetters_iff {cs ds : List Char} : SameLetters cs ds ↔ lower cs = lower ds := by
  have hletter : SameLetter = fun c d => c.toLower = d.toLower := by
    funext c d
    exact propext sameLetter_iff
  rw [SameLetters, hletter, lower, lower, ← List.forall₂_eq_eq_eq, List.forall₂_map_left_iff,
    List.forall₂_map_right_iff]

theorem isAlpha_of_toLower {c : Char} (h : c.toLower.isLower = true) : c.isAlpha = true := by
  rw [isLower_iff, toNat_toLower] at h
  refine Bool.or_eq_true_iff.mpr ?_
  by_cases hc : c.isUpper = true
  · exact Or.inl hc
  · rw [if_neg hc] at h
    exact Or.inr (isLower_iff.mpr h)

theorem isBlank_of_isAlpha {c : Char} (h : c.isAlpha = true) : isBlank c = false := by
  have hcase : (c.isUpper || c.isLower) = true := h
  rw [Bool.or_eq_true, isUpper_iff, isLower_iff] at hcase
  exact isBlank_of_ascii (by omega) (by omega)

end Text

/-! ## Spellings -/

namespace Level

def spellings : Level → List String
  | .trace => ["trace", "trce"]
  | .debug => ["debug", "dbug"]
  | .information => ["info", "information"]
  | .warning => ["warn", "warning"]
  | .error => ["error", "fail"]
  | .critical => ["critical", "crit", "fatal"]
  | .unassigned => ["none"]

/-- A name of the level in letters of either case. -/
def Names (l : Level) (cs : List Char) : Prop :=
  ∃ name ∈ l.spellings, Text.SameLetters cs name.toList

def Spelled (l : Level) (text : String) : Prop := Text.BetweenBlanks l.Names text

theorem isLower_of_mem_spelling {l : Level} {name : String} {c : Char} (h : name ∈ l.spellings)
    (hc : c ∈ name.toList) : c.isLower = true := by
  have hall : l.spellings.all (fun name => name.toList.all Char.isLower) = true := by
    cases l <;> decide
  exact List.all_eq_true.mp (List.all_eq_true.mp hall name h) c hc

theorem lower_spelling {l : Level} {name : String} (h : name ∈ l.spellings) :
    lower name.toList = name.toList := by
  have hall : l.spellings.all (fun name => lower name.toList == name.toList) = true := by
    cases l <;> decide
  exact eq_of_beq (List.all_eq_true.mp hall name h)

theorem lookup_names_iff {name : String} {l : Level} :
    names.lookup name = some l ↔ name ∈ l.spellings := by
  constructor
  · intro h
    have hmem : (name, l) ∈ names := by
      obtain ⟨pre, post, hsplit, _⟩ := List.lookup_eq_some_iff.mp h
      rw [hsplit]
      simp
    have hall : names.all (fun e => e.2.spellings.contains e.1) = true := by decide
    simpa using List.all_eq_true.mp hall (name, l) hmem
  · intro h
    have hall : l.spellings.all (fun name => names.lookup name == some l) = true := by
      cases l <;> decide
    exact eq_of_beq (List.all_eq_true.mp hall name h)

theorem Names.isAlpha {l : Level} {cs : List Char} (h : l.Names cs) : ∀ c ∈ cs, c.isAlpha = true := by
  obtain ⟨name, hname, hcs⟩ := h
  intro c hc
  have hlower : c.toLower ∈ lower cs := List.mem_map_of_mem hc
  rw [Text.sameLetters_iff.mp hcs, lower_spelling hname] at hlower
  exact Text.isAlpha_of_toLower (isLower_of_mem_spelling hname hlower)

theorem spelled_iff {l : Level} {text : String} : l.Spelled text ↔ l.Names (trim text.toList) :=
  Text.betweenBlanks_iff fun _ h c hc => Text.isBlank_of_isAlpha (h.isAlpha c hc)

theorem named?_eq_some_iff {text : String} {l : Level} : named? text = some l ↔ l.Spelled text := by
  rw [named?, lookup_names_iff, spelled_iff]
  constructor
  · intro h
    refine ⟨_, h, ?_⟩
    rw [Text.sameLetters_iff, lower_spelling h, Text.fold, String.toList_ofList]
  · rintro ⟨name, hname, hletters⟩
    rwa [Text.fold, Text.sameLetters_iff.mp hletters, lower_spelling hname, String.ofList_toList]

theorem not_spelled_of_mem_trim {text : String} {c : Char} (hmem : c ∈ trim text.toList)
    (hc : c.isAlpha = false) (l : Level) : ¬ l.Spelled text := by
  intro h
  rw [(spelled_iff.mp h).isAlpha c hmem] at hc
  cases hc

theorem not_spelled_of_innerBlank {text : String} (h : Text.InnerBlank text) (l : Level) :
    ¬ l.Spelled text := by
  obtain ⟨c, hmem, hblank⟩ := h.mem_trim
  have halpha : c.isAlpha = false := by
    rw [← Bool.not_eq_true]
    intro halpha
    rw [Text.isBlank_of_isAlpha halpha] at hblank
    cases hblank
  exact not_spelled_of_mem_trim hmem halpha l

theorem parse_eq_ok_iff {text : String} {l : Level} : parse text = .ok l ↔ l.Spelled text := by
  rw [← named?_eq_some_iff, parse]
  cases named? text <;> simp

theorem parse_of_not_spelled {text : String} (h : ∀ l : Level, ¬ l.Spelled text) :
    parse text = .error ⟨text⟩ := by
  cases hnamed : named? text with
  | none => rw [parse, hnamed]
  | some l => exact absurd (named?_eq_some_iff.mp hnamed) (h l)

end Level

namespace LogRecord

variable {r : LogRecord} {text : String}

theorem severity_of_spelled {l : Level} (htext : r.severityText = some text) (h : l.Spelled text) :
    r.view.severity = .level l := by
  show r.severity = _
  rw [severity, htext, Option.bind_some, Level.named?_eq_some_iff.mpr h]

theorem severity_of_not_spelled (h : ∀ text, r.severityText = some text → ∀ l : Level, ¬ l.Spelled text) :
    r.view.severity = .number (r.severityNumber.getD 0) := by
  have hnone : r.severityText.bind Level.named? = none := by
    cases htext : r.severityText with
    | none => rfl
    | some text =>
      rw [Option.bind_some, Option.eq_none_iff_forall_ne_some]
      intro l hl
      exact h text htext l (Level.named?_eq_some_iff.mp hl)
  show r.severity = _
  rw [severity, hnone]

end LogRecord

/-- A text is read as a level exactly if it spells one, and else the error keeps it as it is. So a
character inside that is no ASCII letter, a blank among them, is always refused. The severity of a record
is the level that its text spells, and its number, or 0, only if it spells none. -/
theorem Level.parse_accepts_spellings (text : String) :
    (∀ l, parse text = .ok l ↔ l.Spelled text) ∧
    (∀ e, parse text = .error e ↔ e = ⟨text⟩ ∧ ∀ l : Level, ¬ l.Spelled text) ∧
    (∀ c ∈ text.toList, isBlank c = false → c.isAlpha = false → parse text = .error ⟨text⟩) ∧
    (Text.InnerBlank text → parse text = .error ⟨text⟩) ∧
    ∀ r : LogRecord,
      (∀ l : Level, r.severityText = some text → l.Spelled text → r.view.severity = .level l) ∧
      (r.severityText = none ∨ r.severityText = some text ∧ (∀ l : Level, ¬ l.Spelled text) →
        (∀ n, r.severityNumber = some n → r.view.severity = .number n) ∧
        (r.severityNumber = none → r.view.severity = .number 0)) := by
  refine ⟨fun l => parse_eq_ok_iff, ?_, ?_, ?_, ?_⟩
  · intro e
    constructor
    · intro he
      have hnot : ∀ l : Level, ¬ l.Spelled text := by
        intro l hl
        rw [parse_eq_ok_iff.mpr hl] at he
        cases he
      rw [parse_of_not_spelled hnot] at he
      exact ⟨(Except.error.inj he).symm, hnot⟩
    · rintro ⟨rfl, hnot⟩
      exact parse_of_not_spelled hnot
  · intro c hc hsolid halpha
    exact parse_of_not_spelled (not_spelled_of_mem_trim (Text.mem_trim_of_solid hc hsolid) halpha)
  · intro h
    exact parse_of_not_spelled (not_spelled_of_innerBlank h)
  · intro r
    refine ⟨fun l htext hl => LogRecord.severity_of_spelled htext hl, ?_⟩
    intro hr
    have hnumber : r.view.severity = .number (r.severityNumber.getD 0) := by
      apply LogRecord.severity_of_not_spelled
      intro other hother
      rcases hr with hr | ⟨hr, hnot⟩
      · rw [hr] at hother
        cases hother
      · rw [hr] at hother
        cases hother
        exact hnot
    refine ⟨fun n hn => ?_, fun hn => ?_⟩
    · rw [hnumber, hn, Option.getD_some]
    · rw [hnumber, hn, Option.getD_none]

/-- A level between blanks, one of them outside ASCII, and a name with a blank in it. -/
theorem Level.parse_accepts_spellings_fatal :
    let text := "\u2003FaTaL\t"
    let r : LogRecord := ⟨"App", some text, some 9, none, none, [], none, none⟩
    Level.critical.Spelled text ∧ parse text = .ok .critical ∧
    r.view.severity = .level .critical ∧ parse "in fo" = .error ⟨"in fo"⟩ ∧
    { r with severityText := some "in fo" }.view.severity = .number 9 := by
  intro text r
  have hspelled : Level.critical.Spelled text := by
    refine ⟨['\u2003'], "FaTaL".toList, ['\t'], by decide, List.all_eq_true.mp rfl,
      List.all_eq_true.mp rfl, "fatal", by decide, ?_⟩
    exact Text.sameLetters_iff.mpr (by decide)
  obtain ⟨hok, _, _, _, hrecord⟩ := parse_accepts_spellings text
  obtain ⟨_, herror, _, hinner, hrecord'⟩ := parse_accepts_spellings "in fo"
  have hrefused : parse "in fo" = .error ⟨"in fo"⟩ :=
    hinner ⟨['i', 'n'], ' ', ['f', 'o'], by decide, by decide, ⟨'i', by decide, by decide⟩,
      ⟨'f', by decide, by decide⟩⟩
  obtain ⟨_, hnot⟩ := (herror _).mp hrefused
  refine ⟨hspelled, (hok _).mpr hspelled, (hrecord r).1 _ rfl hspelled, hrefused, ?_⟩
  exact ((hrecord' _).2 (Or.inr ⟨rfl, hnot⟩)).1 9 rfl

end ConsoleLog
