import ConsoleLog.Time.Instant

/-!
# Instants and their distances

The distance of an instant tells its seconds and its fraction again, before the epoch as after it, and
no step on the way back leaves the words of 64 bits but at the lowest instant, whose distance is no
word. So the calendar gives back every instant that it covers and no other.
-/

namespace ConsoleLog.Time

namespace Span

theorem ofNanos_eq {q r : Nat} (h : r < nanosPerSecond) :
    ofNanos (q * nanosPerSecond + r) = ⟨q, r, h⟩ := by
  have hpos : 0 < nanosPerSecond := by decide
  have hq : (q * nanosPerSecond + r) / nanosPerSecond = q := by
    rw [Nat.mul_comm, Nat.mul_add_div hpos, Nat.div_eq_of_lt h, Nat.add_zero]
  have hr : (q * nanosPerSecond + r) % nanosPerSecond = r := by
    rw [Nat.mul_comm, Nat.mul_add_mod, Nat.mod_eq_of_lt h]
  simp only [ofNanos, hq, hr]

end Span

namespace Instant

theorem distance_of_nonneg {i : Instant} (h : 0 ≤ i.seconds.toInt) :
    i.distance = .after ⟨i.seconds.toInt.natAbs, i.nanos, i.nanos_lt⟩ := by
  have hpos : 0 ≤ i.totalNanos := by
    unfold totalNanos nanosPerSecond
    omega
  have habs : i.totalNanos.natAbs = i.seconds.toInt.natAbs * nanosPerSecond + i.nanos := by
    unfold totalNanos nanosPerSecond
    omega
  rw [distance, if_pos hpos, habs, Span.ofNanos_eq i.nanos_lt]

theorem distance_of_whole {i : Instant} (h : i.seconds.toInt < 0) (hnanos : i.nanos = 0) :
    i.distance = .before ⟨i.seconds.toInt.natAbs, 0, by decide⟩ := by
  have hneg : ¬ 0 ≤ i.totalNanos := by
    unfold totalNanos nanosPerSecond
    omega
  have habs : i.totalNanos.natAbs = i.seconds.toInt.natAbs * nanosPerSecond + 0 := by
    unfold totalNanos nanosPerSecond
    omega
  rw [distance, if_neg hneg, habs, Span.ofNanos_eq (by decide)]

/-- Of a second that has begun before the epoch the distance has the part that is left. -/
theorem distance_of_fraction {i : Instant} (h : i.seconds.toInt < 0) (hnanos : 0 < i.nanos) :
    i.distance = .before ⟨(i.seconds.toInt + 1).natAbs, nanosPerSecond - i.nanos,
      Nat.sub_lt (by decide) hnanos⟩ := by
  have hlt := i.nanos_lt
  have hneg : ¬ 0 ≤ i.totalNanos := by
    unfold totalNanos nanosPerSecond at *
    omega
  have habs : i.totalNanos.natAbs =
      (i.seconds.toInt + 1).natAbs * nanosPerSecond + (nanosPerSecond - i.nanos) := by
    unfold totalNanos nanosPerSecond at *
    omega
  rw [distance, if_neg hneg, habs, Span.ofNanos_eq (Nat.sub_lt (by decide) hnanos)]

/-- The way back from a distance to an instant: each step gives a word, its exact result. -/
inductive Retraces (i : Instant) : Distance → Prop
  | after {s : Span} (word : s.word? = some i.seconds) (word_exact : i.seconds.toInt = s.seconds)
      (nanos : i.nanos = s.nanos) : Retraces i (.after s)
  | whole {s : Span} {w : Int64} (whole : s.nanos = 0) (word : s.word? = some w)
      (word_exact : w.toInt = s.seconds) (neg : Word.neg? w = some i.seconds)
      (neg_exact : i.seconds.toInt = -w.toInt) (nanos : i.nanos = 0) : Retraces i (.before s)
  | fraction {s : Span} {w n : Int64} (fraction : s.nanos ≠ 0) (word : s.word? = some w)
      (word_exact : w.toInt = s.seconds) (neg : Word.neg? w = some n) (neg_exact : n.toInt = -w.toInt)
      (sub : Word.sub? n 1 = some i.seconds) (sub_exact : i.seconds.toInt = n.toInt - 1)
      (nanos : i.nanos = nanosPerSecond - s.nanos) : Retraces i (.before s)

theorem Retraces.ofDistance? {i : Instant} {d : Distance} (h : Retraces i d) :
    Instant.ofDistance? d = some i := by
  obtain ⟨seconds, nanos, hlt⟩ := i
  unfold Instant.ofDistance?
  cases h with
  | after word _ hnanos =>
    subst hnanos
    simp only [word, Option.map_some]
  | whole whole word _ neg _ hnanos =>
    subst hnanos
    simp only [word, neg, Option.bind_some, dif_pos whole]
  | fraction fraction word _ neg _ sub _ hnanos =>
    subst hnanos
    simp only [word, neg, Option.bind_some, dif_neg fraction, sub, Option.map_some]

/-- No word holds the distance of this one. -/
def lowest : Instant := { epoch with seconds := Int64.minValue }

theorem eq_lowest {i : Instant} (hseconds : i.seconds.toInt = Int64.minValue.toInt)
    (hnanos : i.nanos = 0) : i = lowest := by
  obtain ⟨seconds, nanos, hlt⟩ := i
  have hmin : seconds = Int64.minValue := Int64.toInt_inj.mp hseconds
  subst hmin hnanos
  rfl

theorem distance_lowest :
    lowest.distance = .before ⟨Int64.minValue.toInt.natAbs, 0, by decide⟩ := by decide

theorem ofDistance?_lowest : ofDistance? lowest.distance = none := by decide

theorem retraces_distance {i : Instant} (h : i ≠ lowest) : Retraces i i.distance := by
  have hlow := Int64.le_toInt i.seconds
  have hhigh := Int64.toInt_lt i.seconds
  have hmin := Int64.toInt_minValue
  have hmax := Int64.toInt_maxValue
  by_cases hsign : 0 ≤ i.seconds.toInt
  · have hexact : i.seconds.toInt = (i.seconds.toInt.natAbs : Int) := by omega
    rw [distance_of_nonneg hsign]
    exact .after (Word.ofInt?_eq_some_iff.mpr hexact) hexact rfl
  · have hneg : i.seconds.toInt < 0 := by omega
    by_cases hnanos : i.nanos = 0
    · have hne : i.seconds.toInt ≠ Int64.minValue.toInt := fun hseconds => h (eq_lowest hseconds hnanos)
      rw [distance_of_whole hneg hnanos]
      obtain ⟨w, hword, hexact⟩ :=
        Word.exists_ofInt? (z := (i.seconds.toInt.natAbs : Int)) (by omega) (by omega)
      have hback : i.seconds.toInt = -w.toInt := by omega
      exact .whole rfl hword hexact (Word.ofInt?_eq_some_iff.mpr hback) hback hnanos
    · have hpos : 0 < i.nanos := by omega
      have hlt := i.nanos_lt
      rw [distance_of_fraction hneg hpos]
      obtain ⟨w, hword, hexact⟩ :=
        Word.exists_ofInt? (z := ((i.seconds.toInt + 1).natAbs : Int)) (by omega) (by omega)
      obtain ⟨n, hn, hnexact⟩ := Word.exists_ofInt? (z := -w.toInt) (by omega) (by omega)
      have hback : i.seconds.toInt = n.toInt - 1 := by omega
      refine .fraction ?_ hword hexact hn hnexact (Word.ofInt?_eq_some_iff.mpr hback) hback ?_
      · simp only
        omega
      · simp only
        omega

/-- The calendar gives back what it covers, and nothing else. -/
theorem calendar?_eq (i : Instant) : i.calendar? = if i.inCalendar then some i else none := by
  by_cases h : i = lowest
  · subst h
    rfl
  · rw [calendar?, (retraces_distance h).ofDistance?]
    rfl

theorem seconds_distance_lt (i : Instant) : i.distance.span.seconds < UInt64.size := by
  have hlow := Int64.le_toInt i.seconds
  have hhigh := Int64.toInt_lt i.seconds
  have hlt := i.nanos_lt
  have hspan : i.distance.span = .ofNanos i.totalNanos.natAbs := by
    unfold distance
    split
    · rfl
    · rfl
  rw [hspan]
  unfold Span.ofNanos totalNanos nanosPerSecond UInt64.size at *
  simp only
  omega

/-- What the calendar gives back has the same seconds and the same fraction. Every step back from a
distance has its exact result, except that the lowest distance is refused at the first; the calendar
does not cover its instant either. -/
theorem calendar?_retraces_distance (i : Instant) :
    i.calendar? = i.covered? ∧
    (i.covered? =
      if firstSecond ≤ i.seconds.toInt ∧ i.seconds.toInt ≤ lastSecond then some i else none) ∧
    i.distance.span.seconds < UInt64.size ∧
    (i ≠ lowest ∧ Retraces i i.distance ∧ ofDistance? i.distance = some i ∨
      i = lowest ∧ i.distance = .before ⟨Int64.minValue.toInt.natAbs, 0, by decide⟩ ∧
        Word.ofInt? Int64.minValue.toInt.natAbs = none ∧ ofDistance? i.distance = none ∧
        i.covered? = none) := by
  refine ⟨calendar?_eq i, ?_, seconds_distance_lt i, ?_⟩
  · simp [covered?, inCalendar]
  · by_cases h : i = lowest
    · right
      subst h
      exact ⟨rfl, distance_lowest, by decide, ofDistance?_lowest, by decide⟩
    · left
      exact ⟨h, retraces_distance h, (retraces_distance h).ofDistance?⟩

/-- The last billionth before the epoch belongs to the second below it. -/
example : ofDistance? (.before ⟨0, 1, by decide⟩) = some ⟨-1, 999999999, by decide⟩ := by decide

end Instant

end ConsoleLog.Time
