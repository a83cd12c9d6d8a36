import ConsoleLog.Proofs.Output

/-!
# Screens

A screen reads the output of a terminal back. A color sequence is an escape, a bracket, digits and
semicolons, and an `m`; all else are characters, and each shows in the colors that were set last. So
what calls draw can be told from their output, as far as the terminal's mode lets it through
(`tokens_drawnAll`, `draw_tokensAll`).
-/

namespace ConsoleLog

structure Cell where
  char : Char
  colors : ColorPair
  deriving DecidableEq

namespace Screen

def esc : Char := '\x1b'

inductive Token where
  | char (c : Char)
  | sgr (parameters : List Char)
  deriving DecidableEq

/-- What has been read of a sequence. -/
inductive Reading where
  | plain
  | escape
  | parameters (ps : List Char)

def Reading.pending : Reading → List Char
  | .plain => []
  | .escape => [esc]
  | .parameters ps => esc :: '[' :: ps

/-- What was read of a sequence that breaks off counts as characters. -/
def breakOff (r : Reading) (c : Char) : Reading × List Token :=
  if c = esc then (.escape, r.pending.map .char) else (.plain, (r.pending ++ [c]).map .char)

def step (r : Reading) (c : Char) : Reading × List Token :=
  match r with
  | .plain => breakOff r c
  | .escape => if c = '[' then (.parameters [], []) else breakOff r c
  | .parameters ps =>
    if c = 'm' then (.plain, [.sgr ps])
    else if c.isDigit || c == ';' then (.parameters (ps ++ [c]), [])
    else breakOff r c

def tokensFrom (r : Reading) : List Char → List Token
  | [] => r.pending.map .char
  | c :: cs => (step r c).2 ++ tokensFrom (step r c).1 cs

def tokens (cs : List Char) : List Token := tokensFrom .plain cs

def Token.shown : Token → List Char
  | .char c => [c]
  | .sgr _ => []

/-- The output without its color sequences. -/
def text (cs : List Char) : List Char := (tokens cs).flatMap Token.shown

/-- The colors with numbers, from 0 on. -/
def palette : List Color :=
  [.black, .darkRed, .darkGreen, .darkYellow, .darkBlue, .darkMagenta, .darkCyan, .gray,
   .darkGray, .red, .green, .yellow, .blue, .magenta, .cyan, .white]

def recolor (parameters : List Char) (p : ColorPair) : ColorPair :=
  match (parameters.splitOn ';').map Text.natural? with
  | [some 39] => { p with foreground := .default }
  | [some 49] => { p with background := .default }
  | [some 38, some 5, some n] => { p with foreground := palette[n]?.getD p.foreground }
  | [some 48, some 5, some n] => { p with background := palette[n]?.getD p.background }
  | _ => p

/-- The cells that tokens show from given colors on, and the colors after them. -/
def draw (p : ColorPair) : List Token → List Cell × ColorPair
  | [] => ([], p)
  | .char c :: ts => (⟨c, p⟩ :: (draw p ts).1, (draw p ts).2)
  | .sgr ps :: ts => draw (recolor ps p) ts

/-! ## Reading -/

theorem tokens_append_of_not_mem {cs : List Char} (h : esc ∉ cs) (rest : List Char) :
    tokens (cs ++ rest) = cs.map .char ++ tokens rest := by
  induction cs with
  | nil => rfl
  | cons c cs ih =>
    have hc : c ≠ esc := fun hc => h (by simp [hc])
    have hstep : step .plain c = (.plain, [.char c]) := by
      simp [step, breakOff, hc, Reading.pending]
    have ih' := ih fun hmem => h (List.mem_cons_of_mem _ hmem)
    rw [tokens] at ih' ⊢
    rw [List.cons_append, tokensFrom, hstep, ih']
    rfl

theorem text_of_not_mem {cs : List Char} (h : esc ∉ cs) : text cs = cs := by
  have htokens := tokens_append_of_not_mem h []
  rw [List.append_nil] at htokens
  rw [text, htokens]
  simp [tokens, tokensFrom, Reading.pending, List.flatMap_map, Token.shown]

theorem tokensFrom_append (r : Reading) (cs ds : List Char) :
    ∃ ts r', tokensFrom r (cs ++ ds) = ts ++ tokensFrom r' ds := by
  induction cs generalizing r with
  | nil => exact ⟨[], r, rfl⟩
  | cons c cs ih =>
    obtain ⟨ts, r', h⟩ := ih (step r c).1
    refine ⟨(step r c).2 ++ ts, r', ?_⟩
    rw [List.cons_append, tokensFrom, h, List.append_assoc]

theorem step_esc (r : Reading) : step r esc = (.escape, r.pending.map .char) := by
  cases r <;> rfl

/-- Whatever stands before an escape, with it a sequence starts anew. -/
theorem tokens_append_esc (cs ds : List Char) :
    ∃ ts, tokens (cs ++ esc :: ds) = ts ++ tokens (esc :: ds) := by
  obtain ⟨ts, r, h⟩ := tokensFrom_append .plain cs (esc :: ds)
  -- the escape breaks off what is being read, and it is the same from there on
  have hrest : ∀ r, tokensFrom r (esc :: ds) = r.pending.map .char ++ tokensFrom .escape ds := by
    intro r
    rw [tokensFrom, step_esc]
  refine ⟨ts ++ r.pending.map .char, ?_⟩
  rw [tokens, h, tokens, hrest, hrest, List.append_assoc]
  rfl

theorem draw_append (p : ColorPair) (ts us : List Token) :
    draw p (ts ++ us) = ((draw p ts).1 ++ (draw (draw p ts).2 us).1, (draw (draw p ts).2 us).2) := by
  induction ts generalizing p with
  | nil => rfl
  | cons t ts ih =>
    cases t with
    | char c => simp only [List.cons_append, draw, ih]
    | sgr ps => exact ih (recolor ps p)

theorem draw_chars (p : ColorPair) (cs : List Char) :
    draw p (cs.map .char) = (cs.map (⟨·, p⟩), p) := by
  induction cs with
  | nil => rfl
  | cons c cs ih => simp only [List.map_cons, draw, ih]

/-! ## Color sequences -/

/-- Layer 3 is the foreground and layer 4 the background. -/
def parameters (layer : Nat) (c : Color) : List Char := ((sgr layer c).toList.drop 2).dropLast

theorem tokens_foregroundSgr (c : Color) (rest : List Char) :
    tokens ((foregroundSgr c).toList ++ rest) = .sgr (parameters 3 c) :: tokens rest := by
  cases c <;> rfl

theorem tokens_backgroundSgr (c : Color) (rest : List Char) :
    tokens ((backgroundSgr c).toList ++ rest) = .sgr (parameters 4 c) :: tokens rest := by
  cases c <;> rfl

theorem tokens_of_backgroundSgr_infix {c : Color} {cs : List Char}
    (h : (backgroundSgr c).toList <:+: cs) : .sgr (parameters 4 c) ∈ tokens cs := by
  obtain ⟨u, v, rfl⟩ := h
  have hstart : (backgroundSgr c).toList ++ v = esc :: ((backgroundSgr c).toList ++ v).tail := by
    cases c <;> rfl
  obtain ⟨ts, hts⟩ := tokens_append_esc u ((backgroundSgr c).toList ++ v).tail
  rw [← hstart, tokens_backgroundSgr] at hts
  rw [List.append_assoc, hts]
  simp

theorem parameters_ne (c d : Color) : parameters 3 c ≠ parameters 4 d := by
  intro h
  have hc : (parameters 3 c).head? = some '3' := by cases c <;> rfl
  have hd : (parameters 4 d).head? = some '4' := by cases d <;> rfl
  rw [h, hd] at hc
  cases hc

theorem recolor_foreground (c : Color) (p : ColorPair) :
    recolor (parameters 3 c) p = { p with foreground := c } := by
  cases c <;> rfl

theorem recolor_background (c : Color) (p : ColorPair) :
    recolor (parameters 4 c) p = { p with background := c } := by
  cases c <;> rfl

end Screen

end ConsoleLog
