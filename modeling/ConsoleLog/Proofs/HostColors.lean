import ConsoleLog.Builder
import ConsoleLog.Proofs.ColorTable
import ConsoleLog.Proofs.Layout
import ConsoleLog.Proofs.Precedence

/-!
# Colors of a host configuration

The colors in a host's JSON come to the same policy as the list of entries that they are written
from, whatever names the severities have there, however the text is laid out and in whatever order a
map of the entries lists them again.
-/

namespace ConsoleLog

open Json (Token Holds Takes Fills quoted Plain trueToken falseToken nullToken)

/-! ## Names -/

namespace Severity

def lowerName : Severity → String
  | .trace => "trace"
  | .debug => "debug"
  | .info => "info"
  | .warn => "warn"
  | .fail => "fail"
  | .critical => "critical"
  | .unknown => "unknown"

def Spelled (s : Severity) (key : String) : Prop := key = s.lowerName ∨ key = s.tag

theorem ofKey_of_spelled {s : Severity} {key : String} (h : s.Spelled key) :
    ofKey key = .ok s ∧ Plain key := by
  rcases h with rfl | rfl
  · cases s <;> exact ⟨rfl, by decide⟩
  · cases s <;> exact ⟨rfl, by decide⟩

end Severity

theorem Color.ofName_name (c : Color) : ofName c.name = .ok c ∧ Plain c.name := by
  cases c <;> exact ⟨rfl, by decide⟩

/-! ## The text -/

/-- A pair of colors, its fields in either order. -/
inductive WritesPair (p : ColorPair) : List Token → Prop
  | foreground : WritesPair p [['\x7b'], quoted "foreground", [':'], quoted p.foreground.name, [','],
      quoted "background", [':'], quoted p.background.name, ['\x7d']]
  | background : WritesPair p [['\x7b'], quoted "background", [':'], quoted p.background.name, [','],
      quoted "foreground", [':'], quoted p.foreground.name, ['\x7d']]

/-- The entries in their order up to the brace. -/
inductive WritesEntries : Bool → List ColorEntry → List Token → Prop
  | done (first : Bool) : WritesEntries first [] [['\x7d']]
  | next {first : Bool} {s : Severity} {p : ColorPair} {key : String} {pair rest : List Token}
      {es : List ColorEntry} :
      s.Spelled key → WritesPair p pair → WritesEntries false es rest →
      WritesEntries first ((s, p) :: es)
        ((if first then [] else [[',']]) ++ (quoted key :: ([':'] :: pair ++ rest)))

namespace HostConfig

/-- A setting of a configuration, null if it has no value. -/
inductive Field where
  | format (f : Option String)
  | utc (b : Option Bool)
  | colors (es : Option (List ColorEntry))

def Field.key : Field → String
  | .format _ => "timestampFormat"
  | .utc _ => "useUtcTimestamp"
  | .colors _ => "colors"

theorem Field.plain_key (f : Field) : Plain f.key := by
  cases f with
  | format _ => exact (by decide : Plain "timestampFormat")
  | utc _ => exact (by decide : Plain "useUtcTimestamp")
  | colors _ => exact (by decide : Plain "colors")

inductive WritesValue : Field → List Token → Prop
  | noFormat : WritesValue (.format none) [nullToken]
  | format {f : String} : Plain f → WritesValue (.format (some f)) [quoted f]
  | noUtc : WritesValue (.utc none) [nullToken]
  | utc (b : Bool) : WritesValue (.utc (some b)) [if b then trueToken else falseToken]
  | noColors : WritesValue (.colors none) [nullToken]
  | colors {es : List ColorEntry} {body : List Token} :
      WritesEntries true es body → WritesValue (.colors (some es)) (['\x7b'] :: body)

/-- The fields in their order up to the brace. -/
inductive WritesFields : Bool → List Field → List Token → Prop
  | done (first : Bool) : WritesFields first [] [['\x7d']]
  | next {first : Bool} {f : Field} {value rest : List Token} {fs : List Field} :
      WritesValue f value → WritesFields false fs rest →
      WritesFields first (f :: fs)
        ((if first then [] else [[',']]) ++ (quoted f.key :: ([':'] :: value ++ rest)))

/-- The text is an object with these fields, none of them twice. -/
def Writes (fs : List Field) (text : String) : Prop :=
  (fs.map Field.key).Nodup ∧
    ∃ body rest, WritesFields true fs body ∧ (∀ c ∈ rest, Json.isSpace c = true) ∧
      Holds (['\x7b'] :: body) text.toList rest

end HostConfig

/-! ## Reading the text -/

theorem Except.ok_bind {ε α β : Type} (a : α) (f : α → Except ε β) :
    (Except.ok a >>= f) = f a := rfl

theorem Color.readName_quoted (c : Color) (rest : List Char) :
    readName ('\x22' :: (c.name.toList ++ '\x22' :: rest)) = .ok (c, rest) := by
  obtain ⟨hname, hplain⟩ := ofName_name c
  have hquote : Json.expectChar '\x22' ('\x22' :: (c.name.toList ++ '\x22' :: rest)) =
      .ok (c.name.toList ++ '\x22' :: rest) := rfl
  have htext : Json.ofOption (Json.text? (c.name.toList ++ '\x22' :: rest)) = .ok (c.name, rest) := by
    rw [Json.text?_plain hplain]
    rfl
  rw [readName, hquote, Except.ok_bind, htext]
  simp only [Except.ok_bind, hname]
  rfl

theorem Color.takes_read (c : Color) : Takes Color.read c [quoted c.name] := by
  intro text rest hholds
  obtain ⟨after, hskip, _, hrest⟩ := hholds.skip
  cases hrest
  rw [List.append_assoc, List.singleton_append] at hskip
  rw [Color.read, hskip]
  exact readName_quoted c rest

namespace ColorPair

theorem takes_foreground (d : Draft) (c : Color) (h : d.foreground = none) :
    Takes (Draft.read d "foreground") { d with foreground := some c } [[':'], quoted c.name] := by
  have hvalue := (Color.takes_read c).fieldOnce "foreground"
  rw [← h] at hvalue
  exact hvalue.map fun f => { d with foreground := f }

theorem takes_background (d : Draft) (c : Color) (h : d.background = none) :
    Takes (Draft.read d "background") { d with background := some c } [[':'], quoted c.name] := by
  have hvalue := (Color.takes_read c).fieldOnce "background"
  rw [← h] at hvalue
  exact hvalue.map fun b => { d with background := b }

theorem fills_of_writes {p : ColorPair} {ts : List Token} (h : WritesPair p ts) :
    ∃ body, ts = ['\x7b'] :: body ∧
      Fills Draft.read true ⟨none, none⟩ body ⟨some p.foreground, some p.background⟩ := by
  have hlast : Fills Draft.read false ⟨some p.foreground, some p.background⟩ [['\x7d']] _ :=
    .done _ _
  cases h with
  | foreground =>
    have hsecond : Fills Draft.read false ⟨some p.foreground, none⟩ _ _ :=
      .next (by decide) (takes_background _ p.background rfl) hlast
    exact ⟨_, rfl, .next (by decide) (takes_foreground _ p.foreground rfl) hsecond⟩
  | background =>
    have hsecond : Fills Draft.read false ⟨none, some p.background⟩ _ _ :=
      .next (by decide) (takes_foreground _ p.foreground rfl) hlast
    exact ⟨_, rfl, .next (by decide) (takes_background _ p.background rfl) hsecond⟩

theorem takes_read {p : ColorPair} {ts : List Token} (h : WritesPair p ts) :
    Takes ColorPair.read p ts := by
  intro text rest hholds
  obtain ⟨body, rfl, hfills⟩ := fills_of_writes h
  obtain ⟨after, hskip, _, hbody⟩ := hholds.skip
  have hfields := Json.takes_fields hfills _ _ hbody
  rw [ColorPair.read, hskip]
  simp only [List.nil_append, hfields, Except.ok_bind]
  rfl

end ColorPair

namespace ColorEntry

theorem fills_of_writes {first : Bool} {es : List ColorEntry} {ts : List Token}
    (h : WritesEntries first es ts) (prior : List ColorEntry) :
    Fills readAfter first prior ts (prior ++ es) := by
  induction h generalizing prior with
  | done first =>
    rw [List.append_nil]
    exact .done first prior
  | @next first s p key pair rest es hkey hpair hrest ih =>
    obtain ⟨hs, hplain⟩ := Severity.ofKey_of_spelled hkey
    have hentry : Takes (readAfter prior key) (prior ++ [(s, p)]) ([':'] :: pair) := by
      intro text rest hholds
      have hvalue := (ColorPair.takes_read hpair).fieldValue text rest hholds
      rw [readAfter, hs, Except.ok_bind, hvalue]
      rfl
    have hall := ih (prior ++ [(s, p)])
    rw [List.append_assoc, List.singleton_append] at hall
    exact .next hplain hentry hall

theorem takes_readAll {es : List ColorEntry} {body : List Token} (h : WritesEntries true es body) :
    Takes readAll es (['\x7b'] :: body) := by
  intro text rest hholds
  obtain ⟨after, hskip, _, hbody⟩ := hholds.skip
  rw [readAll, hskip]
  exact Json.takes_fields (fills_of_writes h []) _ _ hbody

end ColorEntry

namespace HostConfig

def Draft.set (d : Draft) : Field → Draft
  | .format f => { d with format := some f }
  | .utc b => { d with utc := some b }
  | .colors es => { d with colors := some es }

def Draft.Lacks (d : Draft) : Field → Prop
  | .format _ => d.format = none
  | .utc _ => d.utc = none
  | .colors _ => d.colors = none

theorem lacks_set {d : Draft} {f g : Field} (h : d.Lacks g) (hne : g.key ≠ f.key) :
    (d.set f).Lacks g := by
  cases f with
  | format _ => cases g <;> first | exact h | exact absurd rfl hne
  | utc _ => cases g <;> first | exact h | exact absurd rfl hne
  | colors _ => cases g <;> first | exact h | exact absurd rfl hne

theorem takes_format {f : Option String} {ts : List Token} (h : WritesValue (.format f) ts) :
    Takes readFormat f ts := by
  cases h with
  | noFormat => exact Json.takes_null _
  | format hplain => exact (Json.takes_string hplain "a string").optional (by decide)

theorem takes_utc {b : Option Bool} {ts : List Token} (h : WritesValue (.utc b) ts) :
    Takes readUtc b ts := by
  cases h with
  | noUtc => exact Json.takes_null _
  | utc b => cases b <;> exact (Json.takes_boolean _).optional (by decide)

theorem takes_colors {es : Option (List ColorEntry)} {ts : List Token}
    (h : WritesValue (.colors es) ts) : Takes readColors es ts := by
  cases h with
  | noColors => exact Json.takes_null _
  | colors hentries => exact (ColorEntry.takes_readAll hentries).optional (by decide)

theorem takes_field {d : Draft} {f : Field} {ts : List Token} (h : WritesValue f ts)
    (hlacks : d.Lacks f) : Takes (d.read f.key) (d.set f) ([':'] :: ts) := by
  cases f with
  | format f =>
    have hvalue := (takes_format h).fieldOnce "timestampFormat"
    rw [← show d.format = none from hlacks] at hvalue
    exact hvalue.map fun f => { d with format := f }
  | utc b =>
    have hvalue := (takes_utc h).fieldOnce "useUtcTimestamp"
    rw [← show d.utc = none from hlacks] at hvalue
    exact hvalue.map fun b => { d with utc := b }
  | colors es =>
    have hvalue := (takes_colors h).fieldOnce "colors"
    rw [← show d.colors = none from hlacks] at hvalue
    exact hvalue.map fun es => { d with colors := es }

theorem fills_of_writes {first : Bool} {fs : List Field} {ts : List Token}
    (h : WritesFields first fs ts) (hnodup : (fs.map Field.key).Nodup) {d : Draft}
    (hlacks : ∀ f ∈ fs, d.Lacks f) : Fills Draft.read first d ts (fs.foldl Draft.set d) := by
  induction h generalizing d with
  | done first => exact .done first d
  | @next first f value rest fs hvalue hrest ih =>
    obtain ⟨hnew, hnodup⟩ := List.nodup_cons.mp hnodup
    have hfield := takes_field hvalue (hlacks f (by simp))
    refine .next f.plain_key hfield (ih hnodup fun g hg => ?_)
    -- the fields left have other keys, so the draft lacks them still
    apply lacks_set (hlacks g (by simp [hg]))
    intro hkey
    rw [← hkey] at hnew
    exact hnew (List.mem_map_of_mem hg)

theorem read_of_writes {fs : List Field} {text : String} (h : Writes fs text) :
    HostConfig.read text = .ok (fs.foldl Draft.set ⟨none, none, none⟩).config := by
  obtain ⟨hnodup, body, rest, hfields, hblank, hholds⟩ := h
  obtain ⟨after, hskip, _, hbody⟩ := hholds.skip
  have hlacks : ∀ f ∈ fs, Draft.Lacks ⟨none, none, none⟩ f := by
    intro f _
    cases f <;> rfl
  have hread := Json.takes_fields (fills_of_writes hfields hnodup hlacks) _ _ hbody
  rw [HostConfig.read, Json.whole, reader, hskip]
  simp only [List.nil_append, hread, Except.ok_bind]
  show (if (Json.skipSpace rest).isEmpty then _ else _) = _
  rw [Json.skipSpace_of_blank hblank]
  rfl

theorem colors_foldl_set {fs : List Field} (h : "colors" ∉ fs.map Field.key) (d : Draft) :
    (fs.foldl Draft.set d).colors = d.colors := by
  induction fs generalizing d with
  | nil => rfl
  | cons f fs ih =>
    rw [List.map_cons, List.mem_cons, not_or] at h
    rw [List.foldl_cons, ih h.2]
    cases f with
    | format _ => rfl
    | utc _ => rfl
    | colors _ => exact absurd rfl h.1

theorem colors_of_mem {fs : List Field} (hnodup : (fs.map Field.key).Nodup)
    {es : Option (List ColorEntry)} (h : .colors es ∈ fs) (d : Draft) :
    (fs.foldl Draft.set d).colors = some es := by
  induction fs generalizing d with
  | nil => cases h
  | cons f fs ih =>
    obtain ⟨hnew, hnodup⟩ := List.nodup_cons.mp hnodup
    rw [List.foldl_cons]
    rcases List.mem_cons.mp h with rfl | h
    · exact colors_foldl_set hnew _
    · exact ih hnodup h _

theorem policy?_of_colors {c : HostConfig} {es : List ColorEntry} (h : c.colors = some es) :
    c.policy? = (ColorPolicy.ofEntries es).map some := by
  rw [policy?, h]

end HostConfig

/-! ## Both ways -/

theorem WritesPair.solid {p : ColorPair} {ts : List Token} (h : WritesPair p ts) :
    ∀ t ∈ ts, Json.Solid t := by
  cases h <;> simp [Json.solid_cons, Json.solid_quoted, Json.isSpace]

theorem exists_writesEntries (first : Bool) (es : List ColorEntry) :
    ∃ ts, WritesEntries first es ts ∧ ∀ t ∈ ts, Json.Solid t := by
  induction es generalizing first with
  | nil => exact ⟨_, .done first, by simp [Json.solid_cons, Json.isSpace]⟩
  | cons e es ih =>
    obtain ⟨s, p⟩ := e
    obtain ⟨rest, hrest, hsolid⟩ := ih false
    have hpair : WritesPair p _ := .foreground
    refine ⟨_, .next (Or.inl rfl) hpair hrest, ?_⟩
    intro t ht
    rcases List.mem_append.mp ht with ht | ht
    · cases first with
      | true => cases ht
      | false =>
        cases List.mem_singleton.mp ht
        exact Json.solid_cons rfl []
    · rcases List.mem_cons.mp ht with rfl | ht
      · exact Json.solid_quoted _
      · rcases List.mem_append.mp ht with ht | ht
        · rcases List.mem_cons.mp ht with rfl | ht
          · exact Json.solid_cons rfl []
          · exact hpair.solid t ht
        · exact hsolid t ht

theorem exists_writes (es : List ColorEntry) :
    ∃ text, HostConfig.Writes [.colors (some es)] text := by
  obtain ⟨body, hbody, hsolid⟩ := exists_writesEntries true es
  have hfields : HostConfig.WritesFields true [.colors (some es)] _ :=
    .next (.colors hbody) (.done false)
  let ts := ['\x7b'] :: quoted "colors" :: [':'] :: ['\x7b'] :: (body ++ [['\x7d']])
  have hall : ∀ t ∈ ts, Json.Solid t := by
    intro t ht
    simp only [ts, List.mem_cons, List.mem_append, List.not_mem_nil, or_false] at ht
    rcases ht with rfl | rfl | rfl | rfl | ht | rfl
    · exact Json.solid_cons rfl []
    · exact Json.solid_quoted _
    · exact Json.solid_cons rfl []
    · exact Json.solid_cons rfl []
    · exact hsolid t ht
    · exact Json.solid_cons rfl []
  have hholds := Json.holds_flatten hall []
  rw [List.append_nil] at hholds
  refine ⟨String.ofList ts.flatten, by simp, _, [], hfields, by simp, ?_⟩
  rw [String.toList_ofList]
  exact hholds

namespace Builder

variable {σ : Type}

theorem step_config {text : String} {c : HostConfig} (h : HostConfig.read text = .ok c)
    (b : Builder σ) : b.step (.config text) = (b.withConfig c).mapError .config := by
  rw [step, h]

/-- The policy that a configuration with colors leaves is that of their entries. -/
theorem policy_withConfig {c : HostConfig} {es : List ColorEntry} (hcolors : c.colors = some es)
    (b : Builder σ) : (b.withConfig c).map (·.policy) = ColorPolicy.ofEntries es := by
  rw [withConfig, HostConfig.policy?_of_colors hcolors]
  cases ColorPolicy.ofEntries es <;> rfl

theorem policy_step_config {text : String} {c : HostConfig} {es : List ColorEntry}
    (hread : HostConfig.read text = .ok c) (hcolors : c.colors = some es) (b : Builder σ) :
    (b.step (.config text)).map (·.policy) = (b.step (.policy es)).map (·.policy) := by
  rw [step_config hread, step, ← policy_withConfig hcolors b]
  cases b.withConfig c <;> rfl

/-- A host's JSON that writes entries as its colors leaves the policy that the entries themselves leave,
or the same error, and with the colors alone it makes the same step. So does every text that is read and
has these colors. A map that has taken the entries in may list them in any order. -/
theorem config_agrees_with_entries (b : Builder σ) (es : List ColorEntry) :
    (∃ text, HostConfig.Writes [.colors (some es)] text) ∧
    (∀ text, HostConfig.Writes [.colors (some es)] text →
      b.step (.config text) = b.step (.policy es)) ∧
    (∀ fs text, HostConfig.Writes fs text → .colors (some es) ∈ fs →
      (b.step (.config text)).map (·.policy) = (b.step (.policy es)).map (·.policy)) ∧
    (∀ text c, HostConfig.read text = .ok c → c.colors = some es →
      (b.step (.config text)).map (·.policy) = (b.step (.policy es)).map (·.policy)) ∧
    (∃ xs, (xs.map Prod.fst).Nodup ∧ ColorPolicy.Lists (ColorPolicy.inserted es) xs) ∧
    (∀ xs c, ColorPolicy.Lists (ColorPolicy.inserted es) xs → c.colors = some es →
      b.withConfig { c with colors := some xs } = b.withConfig c) := by
  refine ⟨exists_writes es, ?_, ?_, ?_, ?_, ?_⟩
  · intro text htext
    rw [step_config (HostConfig.read_of_writes htext), step, withConfig,
      HostConfig.policy?_of_colors rfl]
    cases ColorPolicy.ofEntries es <;> rfl
  · intro fs text htext hmem
    apply policy_step_config (HostConfig.read_of_writes htext)
    show ((fs.foldl HostConfig.Draft.set _).colors).join = _
    rw [HostConfig.colors_of_mem htext.1 hmem]
    rfl
  · intro text c hread hcolors
    exact policy_step_config hread hcolors b
  · exact ⟨ColorPolicy.table es, ColorPolicy.nodup_table es, ColorPolicy.lists_table es⟩
  · intro xs c hlists hcolors
    rw [withConfig, withConfig, HostConfig.policy?_of_colors rfl, HostConfig.policy?_of_colors hcolors,
      ColorPolicy.ofEntries_of_lists hlists]

/-- Two names of one severity are two entries of it, and the next severity has none. -/
example :
    (new ()).step (.config ("\x7b \"colors\": \x7b\"trce\":\x7b\"background\":\"Black\"," ++
      "\"foreground\":\"Red\"\x7d,\n\"trace\": [\"Gray\", \"Black\"]\x7d\x7d")) =
    .error (.config (.missingColors .debug)) := rfl

end Builder

end ConsoleLog
