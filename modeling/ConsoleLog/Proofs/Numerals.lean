import ConsoleLog.Proofs.Trimming
import ConsoleLog.Text.Numeral

/-!
# Texts of whole numbers

Digits are read as a number exactly if they are its own behind zeros (`natural?_eq_some_iff`), and with a
sign or without one a text is read as a whole number exactly if it writes it (`integer?_eq_some_iff`).
-/

namespace ConsoleLog.Text

/-! ## Digits -/

theorem decimal_of_isDigit {c : Char} (h : c.isDigit = true) : decimal (c.toNat - 48) = [c] := by
  obtain ⟨hlow, hhigh⟩ : 48 ≤ c.toNat ∧ c.toNat ≤ 57 := Char.isDigit_iff_toNat.mp h
  have hchar : Nat.digitChar (c.toNat - 48) = c := by
    rw [← Char.toNat_inj, Nat.toNat_digitChar_of_lt_ten (by omega)]
    omega
  rw [decimal, Nat.toDigits_of_lt_base (by omega), hchar]

theorem decimal_append {m : Nat} (hm : 0 < m) {cs : List Char} (h : ∀ c ∈ cs, c.isDigit = true) :
    decimal m ++ cs = decimal (Nat.ofDigitChars 10 cs m) := by
  -- on what is still to be read; the number so far is not 0, so its digits stay as they are
  induction cs generalizing m with
  | nil => simp
  | cons c cs ih =>
    have hc : c.isDigit = true := h c List.mem_cons_self
    obtain ⟨hlow, hhigh⟩ : 48 ≤ c.toNat ∧ c.toNat ≤ 57 := Char.isDigit_iff_toNat.mp hc
    have hdigit : decimal m ++ [c] = decimal (10 * m + (c.toNat - 48)) := by
      rw [← decimal_of_isDigit hc]
      exact Nat.toDigits_append_toDigits (by decide) hm (by omega)
    rw [Nat.ofDigitChars_cons, List.append_cons, hdigit]
    exact ih (by omega) fun d hd => h d (List.mem_cons_of_mem c hd)

/-- Digits are those of their number, behind zeros. -/
theorem exists_zeros {cs : List Char} (hne : cs ≠ []) (h : ∀ c ∈ cs, c.isDigit = true) :
    ∃ zeros, cs = List.replicate zeros '0' ++ decimal (Nat.ofDigitChars 10 cs 0) := by
  induction cs with
  | nil => exact absurd rfl hne
  | cons c cs ih =>
    have hc : c.isDigit = true := h c List.mem_cons_self
    obtain ⟨hlow, _⟩ : 48 ≤ c.toNat ∧ c.toNat ≤ 57 := Char.isDigit_iff_toNat.mp hc
    have hrest : ∀ d ∈ cs, d.isDigit = true := fun d hd => h d (List.mem_cons_of_mem c hd)
    have hvalue : Nat.ofDigitChars 10 (c :: cs) 0 = Nat.ofDigitChars 10 cs (c.toNat - 48) := by
      rw [Nat.ofDigitChars_cons]
      simp
    rw [hvalue]
    by_cases hzero : c.toNat = 48
    · obtain rfl : c = '0' := Char.toNat_inj.mp hzero
      cases cs with
      | nil => exact ⟨0, rfl⟩
      | cons d cs =>
        obtain ⟨zeros, hzeros⟩ := ih (by simp) hrest
        exact ⟨zeros + 1, congrArg ('0' :: ·) hzeros⟩
    · refine ⟨0, ?_⟩
      rw [← decimal_append (by omega) hrest, decimal_of_isDigit hc]
      rfl

theorem natural?_eq_some_iff {cs : List Char} {n : Nat} :
    natural? cs = some n ↔ ∃ zeros, cs = List.replicate zeros '0' ++ decimal n := by
  constructor
  · intro h
    unfold natural? at h
    split at h
    · rename_i hdigits
      simp only [Bool.and_eq_true, Bool.not_eq_true', List.isEmpty_eq_false_iff,
        List.all_eq_true] at hdigits
      cases h
      exact exists_zeros hdigits.1 hdigits.2
    · cases h
  · rintro ⟨zeros, rfl⟩
    have hne : (List.replicate zeros '0' ++ decimal n).isEmpty = false := by
      simp [decimal, Nat.toDigits_ne_nil]
    have hdigits : (List.replicate zeros '0' ++ decimal n).all Char.isDigit = true := by
      rw [List.all_append, List.all_eq_true.mpr fun c hc => isDigit_of_mem_decimal hc]
      simp
    rw [natural?, hne, hdigits, Nat.ofDigitChars_append, Nat.ofDigitChars_replicate_zero, Nat.mul_zero,
      decimal, Nat.ofDigitChars_ten_toDigits]
    rfl

/-! ## Signs and zeros -/

/-- A sign, which may be left out unless it is a minus, zeros, and the digits. -/
inductive Writes (z : Int) : List Char → Prop
  | plain (zeros : Nat) : 0 ≤ z → Writes z (List.replicate zeros '0' ++ decimal z.natAbs)
  | plus (zeros : Nat) : 0 ≤ z → Writes z ('+' :: (List.replicate zeros '0' ++ decimal z.natAbs))
  | minus (zeros : Nat) : z ≤ 0 → Writes z ('-' :: (List.replicate zeros '0' ++ decimal z.natAbs))

/-- The number with nothing but blanks around it. -/
def Encodes (z : Int) (text : String) : Prop := BetweenBlanks (Writes z) text

theorem isDigit_of_mem_zeros {zeros n : Nat} {c : Char}
    (h : c ∈ List.replicate zeros '0' ++ decimal n) : c.isDigit = true := by
  rcases List.mem_append.mp h with h | h
  · rw [List.eq_of_mem_replicate h]
    rfl
  · exact isDigit_of_mem_decimal h

theorem Writes.mem {z : Int} {cs : List Char} (h : Writes z cs) {c : Char} (hc : c ∈ cs) :
    c = '+' ∨ c = '-' ∨ c.isDigit = true := by
  cases h with
  | plain zeros _ => exact Or.inr (Or.inr (isDigit_of_mem_zeros hc))
  | plus zeros _ =>
    rcases List.mem_cons.mp hc with rfl | hc
    · exact Or.inl rfl
    · exact Or.inr (Or.inr (isDigit_of_mem_zeros hc))
  | minus zeros _ =>
    rcases List.mem_cons.mp hc with rfl | hc
    · exact Or.inr (Or.inl rfl)
    · exact Or.inr (Or.inr (isDigit_of_mem_zeros hc))

theorem Writes.exists_digit {z : Int} {cs : List Char} (h : Writes z cs) :
    ∃ c ∈ cs, c.isDigit = true := by
  obtain ⟨c, hc⟩ := List.exists_mem_of_ne_nil (decimal z.natAbs) Nat.toDigits_ne_nil
  refine ⟨c, ?_, isDigit_of_mem_decimal hc⟩
  cases h with
  | plain zeros _ => simp [hc]
  | plus zeros _ => simp [hc]
  | minus zeros _ => simp [hc]

theorem Writes.isBlank {z : Int} {cs : List Char} (h : Writes z cs) :
    ∀ c ∈ cs, isBlank c = false := by
  intro c hc
  rcases h.mem hc with rfl | rfl | hdigit
  · rfl
  · rfl
  · obtain ⟨hlow, hhigh⟩ : 48 ≤ c.toNat ∧ c.toNat ≤ 57 := Char.isDigit_iff_toNat.mp hdigit
    exact isBlank_of_ascii (by omega) (by omega)

theorem encodes_iff {z : Int} {text : String} : Encodes z text ↔ Writes z (trim text.toList) :=
  betweenBlanks_iff fun _ h => h.isBlank

theorem Encodes.exists_digit {z : Int} {text : String} (h : Encodes z text) :
    ∃ c ∈ text.toList, c.isDigit = true := by
  obtain ⟨c, hc, hdigit⟩ := (encodes_iff.mp h).exists_digit
  exact ⟨c, mem_of_mem_trim hc, hdigit⟩

theorem Encodes.mem {z : Int} {text : String} (h : Encodes z text) {c : Char} (hc : c ∈ text.toList)
    (hsolid : isBlank c = false) : c = '+' ∨ c = '-' ∨ c.isDigit = true :=
  (encodes_iff.mp h).mem (mem_trim_of_solid hc hsolid)

theorem Encodes.not_innerBlank {z : Int} {text : String} (h : Encodes z text) :
    ¬ InnerBlank text := by
  intro hinner
  obtain ⟨c, hc, hblank⟩ := hinner.mem_trim
  rw [(encodes_iff.mp h).isBlank c hc] at hblank
  cases hblank

theorem integer?_of_writes {z : Int} {cs : List Char} (h : Writes z cs) : integer? cs = some z := by
  have hread : ∀ zeros, natural? (List.replicate zeros '0' ++ decimal z.natAbs) = some z.natAbs :=
    fun zeros => natural?_eq_some_iff.mpr ⟨zeros, rfl⟩
  cases h with
  | plain zeros hz =>
    have habs : (z.natAbs : Int) = z := by omega
    cases hcs : List.replicate zeros '0' ++ decimal z.natAbs with
    | nil => exact absurd (List.append_eq_nil_iff.mp hcs).2 Nat.toDigits_ne_nil
    | cons c cs =>
      have hc : c.isDigit = true := isDigit_of_mem_zeros (hcs ▸ List.mem_cons_self)
      rw [integer?_of_isDigit hc, ← hcs, hread]
      exact congrArg some habs
  | plus zeros hz =>
    have habs : (z.natAbs : Int) = z := by omega
    rw [integer?, hread]
    exact congrArg some habs
  | minus zeros hz =>
    have habs : -(z.natAbs : Int) = z := by omega
    rw [integer?, hread]
    exact congrArg some habs

theorem zeros_of_map_natural? {cs : List Char} {f : Int → Int} {z : Int}
    (h : (natural? cs : Option Int).map f = some z) :
    ∃ (n : Nat) (zeros : Nat), cs = List.replicate zeros '0' ++ decimal n ∧ f n = z := by
  cases hn : natural? cs with
  | none =>
    rw [hn] at h
    cases h
  | some n =>
    rw [hn] at h
    obtain ⟨zeros, hcs⟩ := natural?_eq_some_iff.mp hn
    exact ⟨n, zeros, hcs, Option.some.inj h⟩

theorem integer?_eq_some_iff {z : Int} {cs : List Char} : integer? cs = some z ↔ Writes z cs := by
  refine ⟨fun h => ?_, integer?_of_writes⟩
  unfold integer? at h
  split at h
  · obtain ⟨n, zeros, rfl, rfl⟩ := zeros_of_map_natural? h
    have hminus := Writes.minus (z := -(n : Int)) zeros (by omega)
    rwa [Int.natAbs_neg, Int.natAbs_natCast] at hminus
  · obtain ⟨n, zeros, rfl, rfl⟩ := zeros_of_map_natural? h
    exact .plus zeros (by omega)
  · obtain ⟨n, zeros, rfl, rfl⟩ := zeros_of_map_natural? h
    exact .plain zeros (by omega)

end ConsoleLog.Text
