import ConsoleLog.Proofs.ColorModes

/-!
# Tracked colors

A terminal sink keeps the colors that it set, since nothing else can tell them. They are the colors
that a screen shows after the bytes that the device took: a sequence that is cut off sets none and is
not kept either, and the device that cut it off takes nothing more.
-/

namespace ConsoleLog

/-! ## Bytes on a screen -/

namespace Text

theorem utf8_cons (c : Char) (cs : List Char) : utf8 (c :: cs) = String.utf8EncodeChar c ++ utf8 cs := by
  simp [utf8, bytes, List.utf8Encode]

theorem mem_utf8EncodeChar {c : Char} {b : UInt8} (h : b ∈ String.utf8EncodeChar c) :
    128 ≤ b.toNat ∨ c.toNat < 128 ∧ b = UInt8.ofNat c.toNat := by
  have hc : c.val.toNat = c.toNat := rfl
  unfold String.utf8EncodeChar at h
  simp only [hc] at h
  split at h
  · right
    exact ⟨by omega, List.mem_singleton.mp h⟩
  · left
    split at h
    · simp only [List.mem_cons, List.not_mem_nil, or_false] at h
      rcases h with rfl | rfl <;> simp <;> omega
    · split at h
      · simp only [List.mem_cons, List.not_mem_nil, or_false] at h
        rcases h with rfl | rfl | rfl <;> simp <;> omega
      · simp only [List.mem_cons, List.not_mem_nil, or_false] at h
        rcases h with rfl | rfl | rfl | rfl <;> simp <;> omega

end Text

namespace Screen

/-- Bytes as a screen reads them. Color sequences are in ASCII, and no byte of any other character
is. -/
def ofBytes (bs : List UInt8) : List Char := bs.map Char.ofUInt8

/-- The colors in which a screen that began in its own shows what comes next. -/
def colorsAfter (bs : List UInt8) : ColorPair := (draw ownColors (tokens (ofBytes bs))).2

theorem ofBytes_append (bs ds : List UInt8) : ofBytes (bs ++ ds) = ofBytes bs ++ ofBytes ds :=
  List.map_append

theorem toNat_ofUInt8 (b : UInt8) : (Char.ofUInt8 b).toNat = b.toNat := by
  show b.toUInt32.toNat = b.toNat
  simp

theorem ofUInt8_ofNat {c : Char} (h : c.toNat < 128) : Char.ofUInt8 (UInt8.ofNat c.toNat) = c := by
  apply Char.toNat_inj.mp
  rw [toNat_ofUInt8]
  simp
  omega

theorem ofBytes_utf8_of_ascii {cs : List Char} (h : ∀ c ∈ cs, c.toNat < 128) :
    ofBytes (Text.utf8 cs) = cs := by
  induction cs with
  | nil => rfl
  | cons c cs ih =>
    have hc : c.toNat < 128 := h c (by simp)
    have hbyte : String.utf8EncodeChar c = [UInt8.ofNat c.toNat] := by
      unfold String.utf8EncodeChar
      exact if_pos (Nat.le_of_lt_succ hc)
    rw [Text.utf8_cons, ofBytes_append, ih fun d hd => h d (by simp [hd]), hbyte]
    show Char.ofUInt8 (UInt8.ofNat c.toNat) :: cs = c :: cs
    rw [ofUInt8_ofNat hc]

theorem esc_not_mem_ofBytes {cs : List Char} (h : esc ∉ cs) : esc ∉ ofBytes (Text.utf8 cs) := by
  induction cs with
  | nil => simp [ofBytes]
  | cons c cs ih =>
    intro hmem
    rw [Text.utf8_cons, ofBytes_append] at hmem
    rcases List.mem_append.mp hmem with hmem | hmem
    · obtain ⟨b, hb, hesc⟩ := List.mem_map.mp hmem
      rcases Text.mem_utf8EncodeChar hb with hlarge | ⟨hc, rfl⟩
      · rw [← toNat_ofUInt8, hesc] at hlarge
        exact absurd hlarge (by decide)
      · rw [ofUInt8_ofNat hc] at hesc
        exact h (by simp [hesc])
    · exact ih (fun hcs => h (by simp [hcs])) hmem

/-! ## Output in parts -/

/-- Nothing is left open: what comes next is read on its own. -/
def Closed (cs : List Char) : Prop := ∀ ds, tokens (cs ++ ds) = tokens cs ++ tokens ds

theorem closed_nil : Closed [] := fun _ => rfl

theorem Closed.append {cs ds : List Char} (h : Closed cs) (h' : Closed ds) : Closed (cs ++ ds) := by
  intro es
  rw [List.append_assoc, h, h', h, List.append_assoc]

theorem closed_of_not_mem {cs : List Char} (h : esc ∉ cs) : Closed cs := by
  intro ds
  have hcs := tokens_append_of_not_mem h []
  rw [List.append_nil] at hcs
  rw [tokens_append_of_not_mem h, hcs]
  simp [tokens, tokensFrom, Reading.pending]

theorem sgr_not_mem_chars (ps cs : List Char) : .sgr ps ∉ cs.map Token.char := by
  simp

theorem sgr_not_mem_step {r : Reading} {c : Char} (h : c ≠ 'm') (ps : List Char) :
    .sgr ps ∉ (step r c).2 := by
  have hbreak : .sgr ps ∉ (breakOff r c).2 := by
    unfold breakOff
    split <;> exact sgr_not_mem_chars ps _
  cases r with
  | plain => exact hbreak
  | escape =>
    simp only [step]
    split
    · simp
    · exact hbreak
  | parameters qs =>
    simp only [step, if_neg h]
    split
    · simp
    · exact hbreak

/-- A sequence is complete with its `m` and not before. -/
theorem sgr_not_mem_tokensFrom {cs : List Char} (h : 'm' ∉ cs) (r : Reading) (ps : List Char) :
    .sgr ps ∉ tokensFrom r cs := by
  induction cs generalizing r with
  | nil => exact sgr_not_mem_chars ps _
  | cons c cs ih =>
    intro hmem
    rw [tokensFrom] at hmem
    rcases List.mem_append.mp hmem with hmem | hmem
    · exact sgr_not_mem_step (fun hc => h (by simp [hc])) ps hmem
    · exact ih (fun hcs => h (by simp [hcs])) _ hmem

theorem draw_of_no_sgr {ts : List Token} (h : ∀ ps, .sgr ps ∉ ts) (p : ColorPair) :
    (draw p ts).2 = p := by
  induction ts with
  | nil => rfl
  | cons t ts ih =>
    cases t with
    | char c => exact ih fun ps hps => h ps (by simp [hps])
    | sgr ps => exact absurd List.mem_cons_self (h ps)

theorem colorsAfter_append {bs ds : List UInt8} (h : Closed (ofBytes bs)) :
    colorsAfter (bs ++ ds) = (draw (colorsAfter bs) (tokens (ofBytes ds))).2 := by
  unfold colorsAfter
  rw [ofBytes_append, h, draw_append]

end Screen

/-! ## Devices -/

namespace Device

def Within (d : Device) : Prop := ∀ n, d.capacity = some n → d.accepted.length ≤ n

def Full (d : Device) : Prop := d.capacity = some d.accepted.length

theorem admitted_eq_take (d : Device) (bytes : List UInt8) : ∃ k, d.admitted bytes = bytes.take k := by
  unfold admitted
  cases d.capacity with
  | none => exact ⟨bytes.length, List.take_length.symm⟩
  | some n => exact ⟨n - d.accepted.length, rfl⟩

theorem admitted_of_full {d : Device} (h : d.Full) (bytes : List UInt8) : d.admitted bytes = [] := by
  have hc : d.capacity = some d.accepted.length := h
  simp [admitted, hc]

theorem fits_of_full {d : Device} (h : d.Full) (bytes : List UInt8) :
    d.fits bytes = true ↔ bytes = [] := by
  have hc : d.capacity = some d.accepted.length := h
  simp only [fits, hc, decide_eq_true_eq, ← List.length_eq_zero_iff]
  omega

theorem within_write {d : Device} (h : d.Within) (bytes : List UInt8) : (d.write bytes).2.Within := by
  intro n hn
  have hle := h n hn
  show (d.accepted ++ d.admitted bytes).length ≤ n
  have hn : d.capacity = some n := hn
  simp only [admitted, hn, List.length_append, List.length_take]
  omega

/-- A write that does not fit is cut off where the device is full. -/
theorem full_write_of_not_fits {d : Device} (hd : d.Within) {bytes : List UInt8}
    (h : d.fits bytes = false) :
    (d.write bytes).2.Full ∧ ∃ k, k < bytes.length ∧ d.admitted bytes = bytes.take k := by
  unfold fits at h
  cases hc : d.capacity with
  | none => simp [hc] at h
  | some n =>
    have hle := hd n hc
    simp only [hc, decide_eq_false_iff_not, Nat.not_le] at h
    have hadmitted : d.admitted bytes = bytes.take (n - d.accepted.length) := by
      simp only [admitted, hc]
    refine ⟨?_, n - d.accepted.length, by omega, hadmitted⟩
    show d.capacity = some (d.accepted ++ d.admitted bytes).length
    rw [hc, hadmitted, List.length_append, List.length_take]
    congr 1
    omega

end Device

/-! ## Color sequences in bytes -/

namespace Call

theorem escapeFree_of_color {c : Call} (h : c.written? = none) : c.EscapeFree := by
  intro text htext
  rw [h] at htext
  cases htext

theorem tokens_drawn_self {c : Call} (h : c.EscapeFree) (m : ColorMode) :
    Screen.tokens (c.drawn m) = c.tokens m := by
  have htokens := tokens_drawn m h []
  rw [List.append_nil] at htokens
  rw [htokens]
  exact List.append_nil _

theorem closed_drawn {c : Call} (h : c.EscapeFree) (m : ColorMode) : Screen.Closed (c.drawn m) := by
  intro ds
  rw [tokens_drawn m h, tokens_drawn_self h]

theorem draw_drawn {c : Call} (h : c.EscapeFree) (m : ColorMode) (p : ColorPair) :
    (Screen.draw (m.shown p) (Screen.tokens (c.drawn m))).2 = m.shown (c.recolor p) := by
  rw [tokens_drawn_self h, draw_tokens]

theorem ascii_drawn {c : Call} (h : c.written? = none) (m : ColorMode) :
    ∀ x ∈ c.drawn m, x.toNat < 128 := by
  have hall : (c.drawn m).all (fun x => x.toNat < 128) = true := by
    cases c with
    | text t => cases h
    | line t => cases h
    | foreground c => cases m <;> cases c <;> decide
    | background c => cases m <;> cases c <;> decide
  intro x hx
  exact of_decide_eq_true (List.all_eq_true.mp hall x hx)

theorem m_not_mem_take_drawn {c : Call} (h : c.written? = none) {m : ColorMode} {k : Nat}
    (hk : k < (c.drawn m).length) : 'm' ∉ (c.drawn m).take k := by
  have hlast : 'm' ∉ (c.drawn m).dropLast := by
    cases c with
    | text t => cases h
    | line t => cases h
    | foreground c => cases m <;> cases c <;> decide
    | background c => cases m <;> cases c <;> decide
  rw [List.dropLast_eq_take] at hlast
  intro hmem
  exact hlast (List.take_subset_take_left _ (by omega) hmem)

theorem ofBytes_drawn {c : Call} (h : c.written? = none) (m : ColorMode) :
    Screen.ofBytes (Text.utf8 (c.drawn m)) = c.drawn m :=
  Screen.ofBytes_utf8_of_ascii (ascii_drawn h m)

theorem esc_not_mem_drawn {c : Call} (h : c.EscapeFree) : Screen.esc ∉ c.drawn .disabled := by
  have hall : Screen.esc ∉ drawnAll .disabled [c] := esc_not_mem_drawnAll (by simpa using h)
  simpa [drawnAll] using hall

end Call

/-! ## Terminals -/

/-- Calls one after the other, whether the ones before are done or not. -/
def Sink.performEach {σ : Type} [Sink σ] (s : σ) (cs : List Call) : σ :=
  cs.foldl (fun s c => (perform s c).2) s

namespace Terminal

/-- The tracked colors are those that a screen shows, which reads the bytes on its own from here or
gets no more. -/
structure InStep (m : ColorMode) (s : Terminal) : Prop where
  mode : s.mode = m
  within : s.device.Within
  ready : s.device.Full ∨ Screen.Closed (Screen.ofBytes s.device.accepted)
  colors : Screen.colorsAfter s.device.accepted = m.shown s.colors
  sequences : ∀ ps, .sgr ps ∈ Screen.tokens (Screen.ofBytes s.device.accepted) →
    ∃ c : Call, .sgr ps ∈ c.tokens m
  plain : m = .disabled → Screen.esc ∉ Screen.ofBytes s.device.accepted

theorem inStep_new (m : ColorMode) (capacity : Option Nat) (flushFaults : List Nat) :
    (new m (.new capacity flushFaults)).InStep m where
  mode := rfl
  within n _ := Nat.zero_le n
  ready := Or.inr Screen.closed_nil
  colors := (m.shown_ownColors).symm
  sequences ps h := by cases h
  plain _ := by simp [new, Device.new, Screen.ofBytes]

namespace InStep

variable {m : ColorMode} {s s' : Terminal}

/-- More bytes, of which there are none if the device was full. -/
theorem extend (h : s.InStep m) (bs : List UInt8)
    (haccepted : s'.device.accepted = s.device.accepted ++ bs)
    (hcapacity : s'.device.capacity = s.device.capacity) (hmode : s'.mode = s.mode)
    (hwithin : s'.device.Within) (hfull : s.device.Full → bs = [])
    (hready : s'.device.Full ∨ Screen.Closed (Screen.ofBytes bs))
    (hcolors : (Screen.draw (m.shown s.colors) (Screen.tokens (Screen.ofBytes bs))).2 =
      m.shown s'.colors)
    (hsequences : ∀ ps, .sgr ps ∈ Screen.tokens (Screen.ofBytes bs) →
      ∃ c : Call, .sgr ps ∈ c.tokens m)
    (hplain : m = .disabled → Screen.esc ∉ Screen.ofBytes bs) : s'.InStep m := by
  have hmode : s'.mode = m := hmode.trans h.mode
  rcases h.ready with hd | hd
  · -- nothing was taken
    have hnil : Screen.ofBytes bs = [] := by
      rw [hfull hd]
      rfl
    rw [hnil] at hcolors
    rw [hfull hd, List.append_nil] at haccepted
    refine ⟨hmode, hwithin, Or.inl ?_, ?_, ?_, ?_⟩
    · show s'.device.capacity = _
      rw [haccepted, hcapacity]
      exact hd
    · rw [haccepted, h.colors]
      exact hcolors
    · rw [haccepted]
      exact h.sequences
    · rw [haccepted]
      exact h.plain
  · refine ⟨hmode, hwithin, ?_, ?_, ?_, ?_⟩
    · rw [haccepted, Screen.ofBytes_append]
      exact hready.imp_right hd.append
    · rw [haccepted, Screen.colorsAfter_append hd, h.colors]
      exact hcolors
    · intro ps hps
      rw [haccepted, Screen.ofBytes_append, hd] at hps
      rcases List.mem_append.mp hps with hps | hps
      · exact h.sequences ps hps
      · exact hsequences ps hps
    · intro hm
      rw [haccepted, Screen.ofBytes_append, List.mem_append, not_or]
      exact ⟨h.plain hm, hplain hm⟩

theorem write (h : s.InStep m) {text : String} (ht : Screen.esc ∉ text.toList) :
    (s.write text).2.InStep m := by
  have hesc : Screen.esc ∉ Screen.ofBytes (s.device.admitted (Text.bytes text)) := by
    obtain ⟨k, hk⟩ := s.device.admitted_eq_take (Text.bytes text)
    intro hmem
    rw [hk, Screen.ofBytes, List.map_take, ← Text.utf8_toList] at hmem
    exact Screen.esc_not_mem_ofBytes ht (List.mem_of_mem_take hmem)
  have hsgr : ∀ ps, .sgr ps ∉ Screen.tokens
      (Screen.ofBytes (s.device.admitted (Text.bytes text))) := by
    intro ps
    have hchars := Screen.tokens_append_of_not_mem hesc []
    rw [List.append_nil] at hchars
    rw [hchars]
    simp [Screen.tokens, Screen.tokensFrom, Screen.Reading.pending]
  apply h.extend (s.device.admitted (Text.bytes text))
  · rfl
  · rfl
  · rfl
  · exact Device.within_write h.within _
  · intro hd
    exact Device.admitted_of_full hd _
  · exact Or.inr (Screen.closed_of_not_mem hesc)
  · exact Screen.draw_of_no_sgr hsgr _
  · intro ps hps
    exact absurd hps (hsgr ps)
  · intro _
    exact hesc

theorem flush (h : s.InStep m) : s.flush.2.InStep m :=
  ⟨h.mode, h.within, h.ready, h.colors, h.sequences, h.plain⟩

theorem writeLine (h : s.InStep m) {text : String} (ht : Screen.esc ∉ text.toList) :
    (s.writeLine text).2.InStep m := by
  have hs₁ := h.write ht
  unfold Terminal.writeLine
  split
  · rename_i s₁ h₁
    rw [h₁] at hs₁
    have hs₂ : (s₁.write "\n").2.InStep m := hs₁.write (by decide)
    split
    · rename_i s₂ h₂
      rw [h₂] at hs₂
      exact hs₂.flush
    · exact hs₂
  · exact hs₁

theorem sequence_written (h : s.InStep m) {sequence : String} {c : Call} (hc : c.written? = none)
    (hdrawn : c.drawn m = sequence.toList) (hfits : s.device.fits (Text.bytes sequence) = true) :
    InStep m { s with
      colors := c.recolor s.colors
      device := { s.device with accepted := s.device.accepted ++ Text.bytes sequence } } := by
  have hfree := Call.escapeFree_of_color hc
  have hread := Call.ofBytes_drawn hc m
  rw [hdrawn, Text.utf8_toList, ← hdrawn] at hread
  apply h.extend (Text.bytes sequence)
  · rfl
  · rfl
  · rfl
  · have hw := Device.within_write h.within (Text.bytes sequence)
    rwa [Device.write, Device.admitted_of_fits hfits] at hw
  · intro hd
    exact (Device.fits_of_full hd _).mp hfits
  · rw [hread]
    exact Or.inr (Call.closed_drawn hfree m)
  · rw [hread]
    exact Call.draw_drawn hfree m s.colors
  · intro ps hps
    rw [hread, Call.tokens_drawn_self hfree] at hps
    exact ⟨c, hps⟩
  · rintro rfl
    rw [hread]
    exact Call.esc_not_mem_drawn hfree

/-- A sequence that is cut off sets nothing, and it is the last that the device takes. -/
theorem sequence_cut (h : s.InStep m) {sequence : String} {c : Call} (hc : c.written? = none)
    (hdrawn : c.drawn m = sequence.toList) (hfits : s.device.fits (Text.bytes sequence) = false) :
    (s.write sequence).2.InStep m := by
  obtain ⟨hfull, k, hk, hadmitted⟩ := Device.full_write_of_not_fits h.within hfits
  have hread := Call.ofBytes_drawn hc m
  rw [hdrawn, Text.utf8_toList, ← hdrawn] at hread
  have hlength : (Text.bytes sequence).length = (c.drawn m).length := by
    rw [← congrArg List.length hread]
    exact (List.length_map _).symm
  have hcut : Screen.ofBytes (s.device.admitted (Text.bytes sequence)) = (c.drawn m).take k := by
    rw [hadmitted, Screen.ofBytes, List.map_take]
    exact congrArg (List.take k) hread
  have hm : 'm' ∉ (c.drawn m).take k := by
    apply Call.m_not_mem_take_drawn hc
    omega
  have hsgr : ∀ ps, .sgr ps ∉ Screen.tokens ((c.drawn m).take k) :=
    Screen.sgr_not_mem_tokensFrom hm .plain
  apply h.extend (s.device.admitted (Text.bytes sequence))
  · rfl
  · rfl
  · rfl
  · exact Device.within_write h.within _
  · intro hd
    exact Device.admitted_of_full hd _
  · exact Or.inl hfull
  · rw [hcut]
    exact Screen.draw_of_no_sgr hsgr _
  · intro ps hps
    rw [hcut] at hps
    exact absurd hps (hsgr ps)
  · rintro rfl
    rw [hcut]
    intro hmem
    exact Call.esc_not_mem_drawn (Call.escapeFree_of_color hc) (List.mem_of_mem_take hmem)

theorem changeColor (h : s.InStep m) {shown : Bool} {sequence : String} {c : Call}
    (hc : c.written? = none) (hdrawn : c.drawn m = if shown then sequence.toList else []) :
    (s.changeColor shown sequence c).2.InStep m := by
  cases shown with
  | false =>
    -- the color is tracked, and the mode does not show it
    have hdraw := Call.draw_drawn (Call.escapeFree_of_color hc) m s.colors
    rw [hdrawn] at hdraw
    exact ⟨h.mode, h.within, h.ready, h.colors.trans hdraw, h.sequences, h.plain⟩
  | true =>
    rw [if_pos rfl] at hdrawn
    rw [Terminal.changeColor, if_pos rfl]
    by_cases hfits : s.device.fits (Text.bytes sequence) = true
    · rw [write_of_fits hfits]
      exact h.sequence_written hc hdrawn hfits
    · have hfits : s.device.fits (Text.bytes sequence) = false := by simpa using hfits
      have hfailed : s.write sequence = (.failed "writer full", (s.write sequence).2) := by
        simp [Terminal.write, Device.write, hfits]
      rw [hfailed]
      exact h.sequence_cut hc hdrawn hfits

theorem perform (h : s.InStep m) {c : Call} (hc : c.EscapeFree) : (s.perform c).2.InStep m := by
  have hmode := h.mode
  cases c with
  | text t => exact h.write (hc t rfl)
  | line t => exact h.writeLine (hc t rfl)
  | foreground c =>
    apply h.changeColor rfl
    rw [hmode]
    rfl
  | background c =>
    apply h.changeColor rfl
    rw [hmode]
    rfl

theorem performEach (h : s.InStep m) {cs : List Call} (hcs : ∀ c ∈ cs, c.EscapeFree) :
    (Sink.performEach s cs).InStep m := by
  induction cs generalizing s with
  | nil => exact h
  | cons c cs ih =>
    apply ih
    · exact h.perform (hcs c (by simp))
    · intro d hd
      exact hcs d (by simp [hd])

theorem recolor_background (h : s.InStep .foregroundOnly) {ps : List Char}
    (hps : .sgr ps ∈ Screen.tokens (Screen.ofBytes s.device.accepted)) (p : ColorPair) :
    (Screen.recolor ps p).background = p.background := by
  obtain ⟨c, hc⟩ := h.sequences ps hps
  have hmem : .sgr ps ∈ [c].flatMap (Call.tokens .foregroundOnly) := by simpa using hc
  rcases Call.sgr_mem_tokensAll .foregroundOnly hmem with ⟨_, d, rfl⟩ | ⟨hshows, _⟩
  · rw [Screen.recolor_foreground]
  · cases hshows

end InStep

/-- However full the device, whatever flush fails and whether the calls are done or not, the tracked
colors are those that a screen shows after the bytes that the device took. With backgrounds held back
no sequence changes the background, and without colors no escape is taken. -/
theorem performEach_tracks_screen (m : ColorMode) (capacity : Option Nat) (flushFaults : List Nat)
    (cs : List Call) (escapeFree : ∀ c ∈ cs, c.EscapeFree) :
    let s := Sink.performEach (new m (.new capacity flushFaults)) cs
    (m = .full → Screen.colorsAfter s.device.accepted = s.colors) ∧
    (m = .foregroundOnly →
      Screen.colorsAfter s.device.accepted = ⟨s.colors.foreground, .default⟩ ∧
      ∀ ps, .sgr ps ∈ Screen.tokens (Screen.ofBytes s.device.accepted) →
        ∀ p, (Screen.recolor ps p).background = p.background) ∧
    (m = .disabled → 0x1b ∉ s.device.accepted) := by
  intro s
  have h : s.InStep m := (inStep_new m capacity flushFaults).performEach escapeFree
  refine ⟨?_, ?_, ?_⟩
  · rintro rfl
    exact h.colors
  · rintro rfl
    exact ⟨h.colors, fun ps hps p => h.recolor_background hps p⟩
  · intro hm hesc
    exact h.plain hm (List.mem_map_of_mem hesc)

/-- The first flush fails, the room ends within the sequence for blue, and after that nothing is
taken. -/
theorem performEach_tracks_screen_cut_off :
    let cs : List Call :=
      [.foreground .red, .line "é", .background .blue, .foreground .green, .text "x"]
    let s := Sink.performEach (new .full (.new (some 20) [0])) cs
    (∀ c ∈ cs, c.EscapeFree) ∧ s.device.accepted.length = 20 ∧
      s.colors = ⟨.red, .default⟩ ∧ Screen.colorsAfter s.device.accepted = s.colors := by
  intro cs s
  have escapeFree : ∀ c ∈ cs, c.EscapeFree := by
    simp [cs, Call.EscapeFree, Call.written?, Screen.esc]
  obtain ⟨hfull, _⟩ := performEach_tracks_screen .full (some 20) [0] cs escapeFree
  exact ⟨escapeFree, by decide, by decide, hfull rfl⟩

end Terminal

end ConsoleLog
