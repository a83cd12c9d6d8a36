import ConsoleLog.Policy
import Mathlib.Data.List.Nodup
import Mathlib.Order.WellFounded

/-!
# Tables of colors

Of the entries of a severity the last one counts, in whatever way the others stand around it, and a
list that has none for some severity is refused for the first such. A row of places, one for each
severity at its rank, is filled from the entries without an access beyond it and holds the same pairs.
-/

namespace ConsoleLog

/-! ## Entries and maps -/

/-- The map after the entries have been inserted in their order. -/
def ColorPolicy.inserted (es : List ColorEntry) : Severity → Option ColorPair :=
  es.foldl (fun m e s => if s = e.1 then some e.2 else m s) fun _ => none

/-- The list has all that the map holds and nothing else. -/
def ColorPolicy.Lists (m : Severity → Option ColorPair) (xs : List ColorEntry) : Prop :=
  ∀ s p, (s, p) ∈ xs ↔ m s = some p

namespace ColorPolicy

theorem lastPair?_cons (e : ColorEntry) (es : List ColorEntry) (s : Severity) :
    lastPair? (e :: es) s = (lastPair? es s).or (if s = e.1 then some e.2 else none) := by
  obtain ⟨t, p⟩ := e
  rw [lastPair?, List.reverse_cons, List.lookup_append, List.lookup_cons]
  by_cases h : s = t
  · simp [h, lastPair?]
  · have hbeq : (s == t) = false := by simpa using h
    simp [h, hbeq, lastPair?]

theorem insert_lastPair? (es : List ColorEntry) (m : Severity → Option ColorPair) (s : Severity) :
    es.foldl (fun m e s => if s = e.1 then some e.2 else m s) m s = (lastPair? es s).or (m s) := by
  induction es generalizing m with
  | nil => rfl
  | cons e es ih =>
    rw [List.foldl_cons, ih, lastPair?_cons, Option.or_assoc]
    by_cases h : s = e.1
    · simp [h]
    · simp [h]

theorem lastPair?_eq_inserted (es : List ColorEntry) (s : Severity) :
    lastPair? es s = inserted es s := by
  rw [inserted, insert_lastPair?, Option.or_none]

theorem mem_of_lastPair? {es : List ColorEntry} {s : Severity} {p : ColorPair}
    (h : lastPair? es s = some p) : (s, p) ∈ es := by
  obtain ⟨pre, post, hsplit, _⟩ := List.lookup_eq_some_iff.mp h
  rw [← List.mem_reverse, hsplit]
  simp

theorem lastPair?_of_lists {m : Severity → Option ColorPair} {xs : List ColorEntry} (h : Lists m xs)
    (s : Severity) : lastPair? xs s = m s := by
  cases hlast : lastPair? xs s with
  | some p => exact ((h s p).mp (mem_of_lastPair? hlast)).symm
  | none =>
    cases hm : m s with
    | none => rfl
    | some p =>
      have hmem : (s, p) ∈ xs.reverse := List.mem_reverse.mpr ((h s p).mpr hm)
      have hkey := List.lookup_eq_none_iff.mp hlast (s, p) hmem
      simp at hkey

/-- Only the entry that counts for each severity makes a difference. -/
theorem ofEntries_congr {es es' : List ColorEntry} (h : ∀ s, lastPair? es s = lastPair? es' s) :
    ofEntries es = ofEntries es' := by
  have hentry : ∀ s, entryFor es s = entryFor es' s := by
    intro s
    rw [entryFor, entryFor, h s]
  simp only [ofEntries, hentry]

theorem ofEntries_of_lists {es xs : List ColorEntry} (h : Lists (inserted es) xs) :
    ofEntries xs = ofEntries es := by
  apply ofEntries_congr
  intro s
  rw [lastPair?_of_lists h, lastPair?_eq_inserted]

theorem lists_table (es : List ColorEntry) : Lists (inserted es) (table es) := by
  intro s p
  have hall : s ∈ Severity.all := by cases s <;> decide
  rw [← lastPair?_eq_inserted, table, List.mem_filterMap]
  constructor
  · rintro ⟨t, _, ht⟩
    obtain ⟨q, hq, heq⟩ := Option.map_eq_some_iff.mp ht
    cases heq
    exact hq
  · intro hp
    exact ⟨s, hall, by rw [hp]; rfl⟩

theorem nodup_table (es : List ColorEntry) : ((table es).map Prod.fst).Nodup := by
  rw [table, List.map_filterMap]
  apply List.Nodup.filterMap
  · intro s t u hs ht
    simp only [Option.map_map, Option.mem_def, Option.map_eq_some_iff] at hs ht
    obtain ⟨p, _, rfl⟩ := hs
    obtain ⟨q, _, hq⟩ := ht
    exact hq.symm
  · decide

theorem lastPair?_append (xs ys : List ColorEntry) (s : Severity) :
    lastPair? (xs ++ ys) s = (lastPair? ys s).or (lastPair? xs s) := by
  rw [lastPair?, List.reverse_append, List.lookup_append]
  rfl

theorem lastPair?_eq_none_iff {es : List ColorEntry} {s : Severity} :
    lastPair? es s = none ↔ s ∉ es.map Prod.fst := by
  rw [lastPair?, List.lookup_eq_none_iff]
  constructor
  · intro h hs
    obtain ⟨e, he, rfl⟩ := List.mem_map.mp hs
    simpa using h e (List.mem_reverse.mpr he)
  · intro h e he
    have hne : s ≠ e.1 := fun hs => h (hs ▸ List.mem_map_of_mem (List.mem_reverse.mp he))
    simpa using hne

theorem lastPair?_eq_some_iff {es : List ColorEntry} {s : Severity} {p : ColorPair} :
    lastPair? es s = some p ↔
      ∃ pre post, es = pre ++ (s, p) :: post ∧ s ∉ post.map Prod.fst := by
  constructor
  · intro h
    obtain ⟨post, pre, hsplit, hpost⟩ := List.lookup_eq_some_iff.mp h
    refine ⟨pre.reverse, post.reverse, ?_, ?_⟩
    · rw [← List.reverse_reverse es, hsplit]
      simp
    · intro hs
      obtain ⟨e, he, rfl⟩ := List.mem_map.mp hs
      simpa using hpost e (List.mem_reverse.mp he)
  · rintro ⟨pre, post, rfl, hpost⟩
    rw [lastPair?_append, lastPair?_cons, lastPair?_eq_none_iff.mpr hpost]
    simp

theorem lastPair?_filter (es : List ColorEntry) (s : Severity) :
    lastPair? (es.filter (·.1 = s)) s = lastPair? es s := by
  induction es with
  | nil => rfl
  | cons e es ih =>
    by_cases h : e.1 = s
    · rw [List.filter_cons_of_pos (by simpa using h), lastPair?_cons, lastPair?_cons, ih]
    · rw [List.filter_cons_of_neg (by simpa using h), lastPair?_cons, ih, if_neg (Ne.symm h),
        Option.or_none]

/-! ## Policies -/

theorem ofEntries_of_present {es : List ColorEntry} (h : ∀ s, lastPair? es s ≠ none) :
    ∃ p, ofEntries es = .ok p ∧ ∀ s, lastPair? es s = some (p.colorsFor s) := by
  choose f hf using fun s => Option.ne_none_iff_exists'.mp (h s)
  have hentry : ∀ s, entryFor es s = .ok (f s) := by
    intro s
    rw [entryFor, hf s]
  refine ⟨⟨f .trace, f .debug, f .info, f .warn, f .fail, f .critical, f .unknown⟩, ?_, ?_⟩
  · simp only [ofEntries, hentry]
    rfl
  · intro s
    rw [hf s]
    cases s <;> rfl

theorem ofEntries_of_missing {es : List ColorEntry} {s : Severity} (h : lastPair? es s = none)
    (hbefore : ∀ t, t.rank < s.rank → lastPair? es t ≠ none) :
    ofEntries es = .error (.missingColors s) := by
  have hmissing : entryFor es s = .error (.missingColors s) := by
    rw [entryFor, h]
  have hfound : ∀ t, t.rank < s.rank →
      entryFor es t = .ok ((lastPair? es t).getD ⟨.default, .default⟩) := by
    intro t ht
    obtain ⟨p, hp⟩ := Option.ne_none_iff_exists'.mp (hbefore t ht)
    rw [entryFor, hp, Option.getD_some]
  -- the entries before the missing one are read without an error
  cases s <;> simp (disch := decide) only [ofEntries, hmissing, hfound] <;> rfl

/-- A list either has all severities, or there is a first one that it lacks. -/
theorem ofEntries_cases (es : List ColorEntry) :
    (∃ p, ofEntries es = .ok p ∧ ∀ s, lastPair? es s = some (p.colorsFor s)) ∨
    ∃ s, ofEntries es = .error (.missingColors s) ∧ lastPair? es s = none ∧
      ∀ t, t.rank < s.rank → lastPair? es t ≠ none := by
  by_cases h : ∃ s, lastPair? es s = none
  · obtain ⟨s, hs, hfirst⟩ := (measure Severity.rank).wf.has_min {s | lastPair? es s = none} h
    have hbefore : ∀ t, t.rank < s.rank → lastPair? es t ≠ none := fun t ht hnone => hfirst t hnone ht
    exact Or.inr ⟨s, ofEntries_of_missing hs hbefore, hs, hbefore⟩
  · exact Or.inl (ofEntries_of_present (not_exists.mp h))

theorem lastPair?_of_ok {es : List ColorEntry} {p : ColorPolicy} (h : ofEntries es = .ok p)
    (s : Severity) : lastPair? es s = some (p.colorsFor s) := by
  rcases ofEntries_cases es with ⟨q, hq, hlast⟩ | ⟨t, ht, _⟩
  · rw [h] at hq
    cases hq
    exact hlast s
  · rw [h] at ht
    cases ht

/-- A policy adds nothing to a list that it was built from, in whatever order its entries come. -/
theorem ofEntries_append_own {es own : List ColorEntry} {p : ColorPolicy} (h : ofEntries es = .ok p)
    (hown : own.Perm p.entries) : ofEntries (es ++ own) = .ok p := by
  have hlists : Lists (fun s => some (p.colorsFor s)) own := by
    intro s q
    have hall : s ∈ Severity.all := by cases s <;> decide
    rw [hown.mem_iff, entries, List.mem_map]
    constructor
    · rintro ⟨t, _, ht⟩
      cases ht
      rfl
    · intro hq
      exact ⟨s, hall, by rw [Option.some.inj hq]⟩
  rw [← h]
  apply ofEntries_congr
  intro s
  rw [lastPair?_append, lastPair?_of_lists hlists, lastPair?_of_ok h, Option.some_or]

end ColorPolicy

/-! ## Rows -/

namespace Row

variable {α : Type}

/-- What ends the filling of a row early. -/
inductive Fault where
  | outOfBounds (place : Nat)
  | refused (e : ConfigError)

def get (row : Array α) (s : Severity) : Except Fault α :=
  match row[s.rank]? with
  | some a => .ok a
  | none => .error (.outOfBounds s.rank)

def set (row : Array α) (s : Severity) (a : α) : Except Fault (Array α) :=
  if h : s.rank < row.size then .ok (row.set s.rank a h) else .error (.outOfBounds s.rank)

/-- The entries written in their order, each at the place of its severity. -/
def fill (row : Array (Option ColorPair)) (es : List ColorEntry) :
    Except Fault (Array (Option ColorPair)) :=
  es.foldlM (fun row e => set row e.1 (some e.2)) row

def copy (slots : Array (Option ColorPair)) (row : Array ColorPair) (s : Severity) :
    Except Fault (Array ColorPair) := do
  match ← get slots s with
  | some p => set row s p
  | none => .error (.refused (.missingColors s))

def ofEntries (es : List ColorEntry) : Except Fault (Array ColorPair) := do
  let slots ← fill (.replicate Severity.all.length none) es
  Severity.all.foldlM (copy slots) (.replicate Severity.all.length ⟨.default, .default⟩)

/-- The row that holds at each place what its severity has. -/
def of (f : Severity → α) : Array α := (Severity.all.map f).toArray

theorem get_of (f : Severity → α) (s : Severity) : get (of f) s = .ok (f s) := by
  cases s <;> rfl

theorem set_of (f : Severity → α) (s : Severity) (a : α) :
    set (of f) s a = .ok (of fun t => if t = s then a else f t) := by
  cases s <;> rfl

theorem fill_of (m : Severity → Option ColorPair) (es : List ColorEntry) :
    fill (of m) es = .ok (of (es.foldl (fun m e s => if s = e.1 then some e.2 else m s) m)) := by
  induction es generalizing m with
  | nil => rfl
  | cons e es ih =>
    rw [fill, List.foldlM_cons, set_of, List.foldl_cons]
    exact ih _

section
variable {m : Severity → Option ColorPair} {g : Severity → ColorPair}

theorem copy_of_some {s : Severity} (h : m s = some (g s)) (f : Severity → ColorPair) :
    copy (of m) (of f) s = .ok (of fun t => if t = s then g s else f t) := by
  rw [copy, get_of, h]
  exact set_of f s (g s)

theorem copy_of_none {s : Severity} (h : m s = none) (row : Array ColorPair) :
    copy (of m) row s = .error (.refused (.missingColors s)) := by
  rw [copy, get_of, h]
  rfl

theorem foldlM_copy_of_some {ss : List Severity} (h : ∀ s ∈ ss, m s = some (g s))
    (f : Severity → ColorPair) :
    ss.foldlM (copy (of m)) (of f) = .ok (of fun s => if s ∈ ss then g s else f s) := by
  induction ss generalizing f with
  | nil => simp [pure, Except.pure]
  | cons s ss ih =>
    obtain ⟨hs, hrest⟩ := List.forall_mem_cons.mp h
    rw [List.foldlM_cons, copy_of_some hs]
    refine (ih hrest _).trans ?_
    congr 2
    funext t
    by_cases ht : t = s
    · simp [ht]
    · simp [ht]

theorem foldlM_copy_of_none {pre post : List Severity} {s : Severity}
    (hpre : ∀ t ∈ pre, m t = some (g t)) (hs : m s = none) (f : Severity → ColorPair) :
    (pre ++ s :: post).foldlM (copy (of m)) (of f) = .error (.refused (.missingColors s)) := by
  rw [List.foldlM_append, foldlM_copy_of_some hpre]
  show List.foldlM (copy (of m)) _ (s :: post) = _
  rw [List.foldlM_cons, copy_of_none hs]
  rfl

end

theorem exists_all_split (s : Severity) :
    ∃ pre post, Severity.all = pre ++ s :: post ∧ ∀ t ∈ pre, t.rank < s.rank := by
  refine ⟨Severity.all.take s.rank, Severity.all.drop (s.rank + 1), ?_, ?_⟩
  · cases s <;> rfl
  · cases s <;> decide

/-- No access is beyond the row, and the row ends up with the pairs of the policy. -/
theorem ofEntries_eq (es : List ColorEntry) :
    ofEntries es = ((ColorPolicy.ofEntries es).map fun p => of p.colorsFor).mapError .refused := by
  have hfill : fill (.replicate Severity.all.length none) es = .ok (of (ColorPolicy.lastPair? es)) := by
    rw [funext (ColorPolicy.lastPair?_eq_inserted es)]
    exact fill_of (fun _ => none) es
  have hcopy : ofEntries es = Severity.all.foldlM (copy (of (ColorPolicy.lastPair? es)))
      (of fun _ => ⟨.default, .default⟩) := by
    rw [ofEntries, hfill]
    rfl
  rw [hcopy]
  rcases ColorPolicy.ofEntries_cases es with ⟨p, hp, hlast⟩ | ⟨s, hs, hnone, hbefore⟩
  · have hall : ∀ s, s ∈ Severity.all := fun s => by cases s <;> decide
    rw [hp, foldlM_copy_of_some fun s _ => hlast s]
    simp only [if_pos (hall _)]
    rfl
  · obtain ⟨pre, post, hsplit, hpre⟩ := exists_all_split s
    have hfound : ∀ t ∈ pre, ColorPolicy.lastPair? es t =
        some ((ColorPolicy.lastPair? es t).getD ⟨.default, .default⟩) := by
      intro t ht
      obtain ⟨p, hp⟩ := Option.ne_none_iff_exists'.mp (hbefore t (hpre t ht))
      rw [hp, Option.getD_some]
    rw [hs, hsplit, foldlM_copy_of_none hfound hnone]
    rfl

end Row

/-- A list gives a policy exactly if it has every severity, and the last entry of each counts. So the
policy's own entries may be added, and entries of different severities may change places. A list with a
gap is refused for its first. Filling a row comes to the same, and no access to it is out of bounds. -/
theorem ColorPolicy.ofEntries_keeps_last (es : List ColorEntry) :
    ((∃ p, ofEntries es = .ok p) ↔ ∀ s, s ∈ es.map Prod.fst) ∧
    (∀ p, ofEntries es = .ok p →
      (∀ s, ∃ pre post, es = pre ++ (s, p.colorsFor s) :: post ∧ s ∉ post.map Prod.fst) ∧
      ∀ own, own.Perm p.entries → ofEntries (es ++ own) = .ok p) ∧
    (∀ es' : List ColorEntry, (∀ s, es'.filter (·.1 = s) = es.filter (·.1 = s)) →
      ofEntries es' = ofEntries es) ∧
    (∀ e, ofEntries es = .error e → ∃ s, e = .missingColors s ∧ s ∉ es.map Prod.fst ∧
      ∀ t, t.rank < s.rank → t ∈ es.map Prod.fst) ∧
    Row.ofEntries es = ((ofEntries es).map fun p => Row.of p.colorsFor).mapError .refused ∧
    ∀ (p : ColorPolicy) (s : Severity), Row.get (Row.of p.colorsFor) s = .ok (p.colorsFor s) := by
  have hpresent : ∀ s, s ∈ es.map Prod.fst ↔ lastPair? es s ≠ none := fun s => by
    rw [Ne, lastPair?_eq_none_iff, not_not]
  refine ⟨?_, ?_, ?_, ?_, Row.ofEntries_eq es, fun p s => Row.get_of p.colorsFor s⟩
  · constructor
    · rintro ⟨p, hp⟩ s
      rw [hpresent, lastPair?_of_ok hp]
      exact Option.some_ne_none _
    · intro hall
      obtain ⟨p, hp, _⟩ := ofEntries_of_present fun s => (hpresent s).mp (hall s)
      exact ⟨p, hp⟩
  · intro p hp
    exact ⟨fun s => lastPair?_eq_some_iff.mp (lastPair?_of_ok hp s),
      fun own hown => ofEntries_append_own hp hown⟩
  · intro es' hsame
    apply ofEntries_congr
    intro s
    rw [← lastPair?_filter es' s, hsame s, lastPair?_filter]
  · intro e he
    rcases ofEntries_cases es with ⟨q, hq, _⟩ | ⟨s, hs, hnone, hbefore⟩
    · rw [he] at hq
      cases hq
    · rw [he] at hs
      cases hs
      exact ⟨s, rfl, lastPair?_eq_none_iff.mp hnone, fun t ht => (hpresent t).mpr (hbefore t ht)⟩

/-- A severity comes twice and the others in any order, and of two gaps the first is named. -/
theorem ColorPolicy.ofEntries_keeps_last_twice :
    let es : List ColorEntry :=
      [(.warn, ⟨.red, .black⟩), (.unknown, ⟨.gray, .black⟩), (.trace, ⟨.gray, .black⟩),
        (.warn, ⟨.cyan, .blue⟩), (.critical, ⟨.white, .red⟩), (.debug, ⟨.gray, .black⟩),
        (.fail, ⟨.red, .black⟩), (.info, ⟨.green, .black⟩)]
    let p : ColorPolicy := ⟨⟨.gray, .black⟩, ⟨.gray, .black⟩, ⟨.green, .black⟩, ⟨.cyan, .blue⟩,
      ⟨.red, .black⟩, ⟨.white, .red⟩, ⟨.gray, .black⟩⟩
    ofEntries es = .ok p ∧ ofEntries (es ++ p.entries.reverse) = .ok p ∧
    ofEntries ((.info, ⟨.green, .black⟩) :: es.dropLast) = .ok p ∧
    ofEntries (es.filter fun e => e.1 ≠ .fail ∧ e.1 ≠ .debug) = .error (.missingColors .debug) ∧
    Severity.debug ∉ (es.filter fun e => e.1 ≠ .fail ∧ e.1 ≠ .debug).map Prod.fst := by
  intro es p
  obtain ⟨_, hok, hmoved, _⟩ := ofEntries_keeps_last es
  obtain ⟨_, _, _, hgap, _⟩ := ofEntries_keeps_last (es.filter fun e => e.1 ≠ .fail ∧ e.1 ≠ .debug)
  have hp : ofEntries es = .ok p := rfl
  have hmissing : ofEntries (es.filter fun e => e.1 ≠ .fail ∧ e.1 ≠ .debug) =
      .error (.missingColors .debug) := rfl
  obtain ⟨s, hs, hnot, _⟩ := hgap _ hmissing
  cases hs
  refine ⟨hp, (hok p hp).2 _ (List.reverse_perm _), ?_, hmissing, hnot⟩
  rw [hmoved _ fun s => by cases s <;> rfl, hp]

end ConsoleLog
