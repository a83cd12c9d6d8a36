/-!
# Lines of a transcript

A transcript is cut at every carriage return and line feed, and empty pieces are dropped, so that
all three styles of line ending give the same lines.
-/

namespace ConsoleLog.Text

def isBreak (c : Char) : Bool := c == '\r' || c == '\n'

def pieces : List Char → List (List Char)
  | [] => [[]]
  | c :: cs =>
    if isBreak c then [] :: pieces cs
    else match pieces cs with
      | [] => [[c]]
      | p :: ps => (c :: p) :: ps

def lines (cs : List Char) : List (List Char) := (pieces cs).filter fun p => !p.isEmpty

def transcriptLines (text : String) : List String := (lines text.toList).map String.ofList

theorem isBreak_eq_false_of_mem_pieces {cs p : List Char} {c : Char} (hp : p ∈ pieces cs) (hc : c ∈ p) :
    isBreak c = false := by
  induction cs generalizing p with
  | nil =>
    cases List.mem_singleton.mp hp
    cases hc
  | cons d cs ih =>
    rw [pieces] at hp
    by_cases hd : isBreak d = true
    · rw [if_pos hd] at hp
      rcases List.mem_cons.mp hp with rfl | hp
      · cases hc
      · exact ih hp hc
    · rw [if_neg hd] at hp
      have hd : isBreak d = false := by simpa using hd
      cases hpieces : pieces cs with
      | nil =>
        rw [hpieces] at hp
        cases List.mem_singleton.mp hp
        cases List.mem_singleton.mp hc
        exact hd
      | cons q ps =>
        rw [hpieces] at hp ih
        rcases List.mem_cons.mp hp with rfl | hp
        · rcases List.mem_cons.mp hc with rfl | hc
          · exact hd
          · exact ih List.mem_cons_self hc
        · exact ih (List.mem_cons_of_mem _ hp) hc

theorem isBreak_eq_false_of_mem_transcriptLines {text line : String} {c : Char}
    (hline : line ∈ transcriptLines text) (hc : c ∈ line.toList) : isBreak c = false := by
  obtain ⟨p, hp, rfl⟩ := List.mem_map.mp hline
  rw [String.toList_ofList] at hc
  exact isBreak_eq_false_of_mem_pieces (List.mem_filter.mp hp).1 hc

end ConsoleLog.Text
