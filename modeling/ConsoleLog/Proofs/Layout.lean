import ConsoleLog.Json.Reader

/-!
# Layouts of JSON

A text is laid out as tokens with blanks between them as one likes. What a reader takes off a text is
told by the tokens: `Takes` says that it takes them in every layout and stops right behind the last.
-/

namespace ConsoleLog.Json

abbrev Token := List Char

/-- The text begins with these tokens, blanks before each, and goes on with the rest. -/
inductive Holds : List Token → List Char → List Char → Prop
  | nil (rest : List Char) : Holds [] rest rest
  | cons {blanks text rest : List Char} {c : Char} {cs : List Char} {ts : List Token} :
      (∀ b ∈ blanks, isSpace b = true) → isSpace c = false → Holds ts text rest →
      Holds ((c :: cs) :: ts) (blanks ++ (c :: cs ++ text)) rest

def Takes {α : Type} (read : Reader α) (a : α) (ts : List Token) : Prop :=
  ∀ text rest : List Char, Holds ts text rest → read text = .ok (a, rest)

/-- A text in quotes, without escapes. -/
def quoted (text : String) : Token := '\x22' :: (text.toList ++ ['\x22'])

/-- The character stands for itself in a string. -/
def isPlain (c : Char) : Bool := c != '\x22' && c != '\\' && 0x20 ≤ c.toNat

def Plain (text : String) : Prop := text.toList.all isPlain = true

instance (text : String) : Decidable (Plain text) :=
  inferInstanceAs (Decidable (text.toList.all isPlain = true))

/-! ## Tokens of a text -/

theorem skipSpace_cons {c : Char} (h : isSpace c = false) (cs : List Char) :
    skipSpace (c :: cs) = c :: cs := by
  simp [skipSpace, h]

theorem skipSpace_blanks {blanks : List Char} (h : ∀ b ∈ blanks, isSpace b = true) {c : Char}
    (hc : isSpace c = false) (cs : List Char) : skipSpace (blanks ++ c :: cs) = c :: cs := by
  induction blanks with
  | nil => exact skipSpace_cons hc cs
  | cons b blanks ih =>
    have hb := h b (by simp)
    have hrest := ih fun d hd => h d (by simp [hd])
    simpa [skipSpace, hb] using hrest

theorem Holds.skip {c : Char} {cs text rest : List Char} {ts : List Token}
    (h : Holds ((c :: cs) :: ts) text rest) :
    ∃ after, skipSpace text = c :: (cs ++ after) ∧ isSpace c = false ∧ Holds ts after rest := by
  cases h with
  | cons hblanks hc hrest => exact ⟨_, skipSpace_blanks hblanks hc _, hc, hrest⟩

theorem Holds.cons_self {c : Char} (hc : isSpace c = false) {cs after rest : List Char}
    {ts : List Token} (h : Holds ts after rest) :
    Holds ((c :: cs) :: ts) (c :: (cs ++ after)) rest := by
  have hblanks : ∀ b ∈ ([] : List Char), isSpace b = true := by simp
  exact .cons hblanks hc h

theorem Holds.split {ts us : List Token} {text rest : List Char} (h : Holds (ts ++ us) text rest) :
    ∃ mid, Holds ts text mid ∧ Holds us mid rest := by
  induction ts generalizing text with
  | nil => exact ⟨text, .nil text, h⟩
  | cons t ts ih =>
    cases h with
    | cons hblanks hc hrest =>
      obtain ⟨mid, hts, hus⟩ := ih hrest
      exact ⟨mid, .cons hblanks hc hts, hus⟩

theorem Holds.length_le {ts : List Token} {text rest : List Char} (h : Holds ts text rest) :
    ts.length ≤ text.length := by
  induction h with
  | nil rest => simp
  | cons hblanks hc hrest ih =>
    simp only [List.length_append, List.length_cons]
    omega

theorem skipSpace_of_blank {blanks : List Char} (h : ∀ b ∈ blanks, isSpace b = true) :
    skipSpace blanks = [] := by
  induction blanks with
  | nil => rfl
  | cons b blanks ih =>
    have hrest := ih fun d hd => h d (by simp [hd])
    simpa [skipSpace, h b (by simp)] using hrest

/-- The token does not begin with a blank. -/
def Solid (t : Token) : Prop := ∃ c cs, t = c :: cs ∧ isSpace c = false

theorem solid_cons {c : Char} (hc : isSpace c = false) (cs : List Char) : Solid (c :: cs) :=
  ⟨c, cs, rfl, hc⟩

theorem solid_quoted (text : String) : Solid (quoted text) := solid_cons rfl _

/-- The tokens without blanks are one layout. -/
theorem holds_flatten {ts : List Token} (h : ∀ t ∈ ts, Solid t) (rest : List Char) :
    Holds ts (ts.flatten ++ rest) rest := by
  induction ts with
  | nil => exact .nil rest
  | cons t ts ih =>
    obtain ⟨c, cs, rfl, hc⟩ := h t (by simp)
    have hrest := ih fun u hu => h u (by simp [hu])
    have hcons : Holds ((c :: cs) :: ts) _ rest := hrest.cons_self hc
    simpa using hcons

/-! ## Strings -/

theorem units?_plain {cs : List Char} (h : cs.all isPlain = true) (rest : List Char) :
    units? (cs ++ '\x22' :: rest) = some (cs.map Char.toNat, rest) := by
  induction cs with
  | nil => simp [units?]
  | cons c cs ih =>
    rw [List.all_cons, Bool.and_eq_true] at h
    have hplain := h.1
    simp only [isPlain, Bool.and_eq_true, bne_iff_ne, decide_eq_true_eq] at hplain
    obtain ⟨⟨hquote, hslash⟩, hlow⟩ := hplain
    rw [List.cons_append, units?]
    · simp [Nat.not_lt.mpr hlow, ih h.2]
    · exact hquote
    · intro _ _ _ _ _ hc
      exact absurd hc hslash
    · intro _ _ hc
      exact absurd hc hslash

theorem not_surrogate (c : Char) : isLead c.toNat = false ∧ isTrail c.toNat = false := by
  have hvalid : c.toNat < 0xD800 ∨ (0xDFFF < c.toNat ∧ c.toNat < 0x110000) := c.valid
  simp only [isLead, isTrail, Bool.and_eq_false_iff, decide_eq_false_iff_not]
  omega

theorem ofUnits?_toNat (cs : List Char) : ofUnits? (cs.map Char.toNat) = some cs := by
  induction cs with
  | nil => rfl
  | cons c cs ih =>
    obtain ⟨hlead, htrail⟩ := not_surrogate c
    cases cs with
    | nil => simp [ofUnits?, hlead, htrail, Char.ofNat_toNat]
    | cons d cs =>
      rw [List.map_cons] at ih
      rw [List.map_cons, List.map_cons, ofUnits?, hlead, htrail, ih]
      simp [Char.ofNat_toNat]

theorem text?_plain {text : String} (h : Plain text) (rest : List Char) :
    text? (text.toList ++ '\x22' :: rest) = some (text, rest) := by
  rw [text?, units?_plain h]
  simp [ofUnits?_toNat]

/-! ## Readers -/

theorem expectChar_eq {c : Char} {ts : List Token} {text rest : List Char}
    (h : Holds ([c] :: ts) text rest) :
    ∃ after, expectChar c text = .ok after ∧ Holds ts after rest := by
  obtain ⟨after, hskip, _, hrest⟩ := h.skip
  refine ⟨after, ?_, hrest⟩
  rw [expectChar, hskip]
  simp

theorem Takes.fieldValue {α : Type} {read : Reader α} {a : α} {ts : List Token}
    (h : Takes read a ts) : Takes (Json.fieldValue read) a ([':'] :: ts) := by
  intro text rest hholds
  obtain ⟨after, hcolon, hrest⟩ := expectChar_eq hholds
  rw [Json.fieldValue, hcolon]
  exact h _ _ hrest

theorem Takes.map {α β : Type} {read : Reader α} {a : α} {ts : List Token} (h : Takes read a ts)
    (f : α → β) : Takes (fun cs => (read cs).map fun r => (f r.1, r.2)) (f a) ts := by
  intro text rest hholds
  simp only [h text rest hholds]
  rfl

theorem Takes.fieldOnce {α : Type} {read : Reader α} {a : α} {ts : List Token} (h : Takes read a ts)
    (name : String) : Takes (Json.fieldOnce name none read) (some a) ([':'] :: ts) :=
  h.fieldValue.map some

theorem takes_string {text : String} (h : Plain text) (expected : String) :
    Takes (Json.string expected) text [quoted text] := by
  intro cs rest hholds
  obtain ⟨after, hskip, _, hrest⟩ := hholds.skip
  cases hrest
  rw [Json.string, hskip]
  show ofOption (text? (text.toList ++ ['\x22'] ++ rest)) = _
  rw [List.append_assoc, List.singleton_append, text?_plain h]
  rfl

theorem word_append {α : Type} (letters rest : List Char) (a : α) :
    word letters a (letters ++ rest) = .ok (a, rest) := by
  have hprefix : letters.isPrefixOf (letters ++ rest) = true := by simp
  rw [word, word?, if_pos hprefix, List.drop_left]
  rfl

def trueToken : Token := ['t', 'r', 'u', 'e']

def falseToken : Token := ['f', 'a', 'l', 's', 'e']

def nullToken : Token := ['n', 'u', 'l', 'l']

theorem takes_boolean (b : Bool) :
    Takes Json.boolean b [if b then trueToken else falseToken] := by
  intro text rest hholds
  cases b with
  | true =>
    obtain ⟨after, hskip, _, hrest⟩ := Holds.skip hholds
    cases hrest
    rw [Json.boolean, hskip]
    exact word_append ['r', 'u', 'e'] rest true
  | false =>
    obtain ⟨after, hskip, _, hrest⟩ := Holds.skip hholds
    cases hrest
    rw [Json.boolean, hskip]
    exact word_append ['a', 'l', 's', 'e'] rest false

theorem takes_null {α : Type} (read : Reader α) : Takes (Json.optional read) none [nullToken] := by
  intro text rest hholds
  obtain ⟨after, hskip, _, hrest⟩ := Holds.skip hholds
  cases hrest
  rw [Json.optional, hskip]
  exact word_append ['u', 'l', 'l'] rest none

/-- A value that does not begin as null does. -/
theorem Takes.optional {α : Type} {read : Reader α} {a : α} {c : Char} {cs : List Char}
    {ts : List Token} (h : Takes read a ((c :: cs) :: ts)) (hc : c ≠ 'n') :
    Takes (Json.optional read) (some a) ((c :: cs) :: ts) := by
  intro text rest hholds
  obtain ⟨after, hskip, hspace, hrest⟩ := hholds.skip
  have hvalue := h _ _ (hrest.cons_self hspace)
  rw [Json.optional, hskip]
  split
  · rename_i heq
    cases heq
    exact absurd rfl hc
  · rw [hvalue]
    rfl

/-! ## Objects -/

/-- The tokens of fields up to the brace, which take the value that the fields before them made to
another. -/
inductive Fills {α : Type} (field : α → String → Reader α) : Bool → α → List Token → α → Prop
  | done (first : Bool) (a : α) : Fills field first a [['\x7d']] a
  | next {first : Bool} {a b c : α} {key : String} {ts rest : List Token} :
      Plain key → Takes (field a key) b ts → Fills field false b rest c →
      Fills field first a ((if first then [] else [[',']]) ++ (quoted key :: (ts ++ rest))) c

section
variable {α : Type} {field : α → String → Reader α}

theorem nextKey?_done {first : Bool} {text rest : List Char} (h : Holds [['\x7d']] text rest) :
    nextKey? first text = .ok (none, rest) := by
  obtain ⟨after, hskip, _, hrest⟩ := h.skip
  cases hrest
  rw [nextKey?, hskip]
  rfl

theorem key_quoted {key : String} (hkey : Plain key) (rest : List Char) :
    Json.key ((key.toList ++ ['\x22']) ++ rest) = .ok (some key, rest) := by
  rw [List.append_assoc, List.singleton_append, Json.key, text?_plain hkey]
  rfl

theorem nextKey?_next {first : Bool} {key : String} (hkey : Plain key) {ts : List Token}
    {text rest : List Char}
    (h : Holds ((if first then [] else [[',']]) ++ (quoted key :: ts)) text rest) :
    ∃ after, nextKey? first text = .ok (some key, after) ∧ Holds ts after rest := by
  cases first with
  | true =>
    obtain ⟨after, hskip, _, hrest⟩ := Holds.skip h
    refine ⟨after, ?_, hrest⟩
    rw [nextKey?, hskip]
    exact key_quoted hkey after
  | false =>
    obtain ⟨mid, hcomma, _, hmid⟩ := Holds.skip h
    obtain ⟨after, hskip, _, hrest⟩ := Holds.skip hmid
    refine ⟨after, ?_, hrest⟩
    rw [nextKey?, hcomma]
    simp only [List.nil_append, Bool.false_eq_true, if_false]
    rw [hskip]
    exact key_quoted hkey after

theorem fieldsFrom_of_fills {first : Bool} {a b : α} {ts : List Token}
    (h : Fills field first a ts b) {fuel : Nat} (hfuel : ts.length ≤ fuel) {text rest : List Char}
    (hholds : Holds ts text rest) : fieldsFrom field fuel first a text = .ok (b, rest) := by
  induction h generalizing fuel text with
  | done first a =>
    obtain ⟨fuel, rfl⟩ := Nat.exists_eq_add_one_of_ne_zero (Nat.ne_of_gt hfuel)
    rw [fieldsFrom, nextKey?_done hholds]
  | @next first a b c key ts us hkey hfield hrest ih =>
    have hlength : (ts ++ us).length + 1 ≤ fuel := by
      refine Nat.le_trans ?_ hfuel
      simp
    obtain ⟨fuel, rfl⟩ := Nat.exists_eq_add_one_of_ne_zero (Nat.ne_zero_of_lt hlength)
    obtain ⟨after, hnext, hafter⟩ := nextKey?_next hkey hholds
    obtain ⟨mid, hvalue, hmid⟩ := hafter.split
    rw [List.length_append] at hlength
    rw [fieldsFrom, hnext]
    simp only [hfield _ _ hvalue]
    exact ih (by omega) hmid

theorem takes_fields {a b : α} {ts : List Token} (h : Fills field true a ts b) :
    Takes (fields field a) b ts := by
  intro text rest hholds
  apply fieldsFrom_of_fills h _ hholds
  exact Nat.le_succ_of_le hholds.length_le

end

end ConsoleLog.Json
