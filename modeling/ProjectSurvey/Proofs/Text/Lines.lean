import Mathlib.Data.List.Basic
import ProjectSurvey.Text.Lines

/-!
# How a text breaks into lines

A text is made of lines with a line end behind each of them but perhaps the last, where a carriage
return and a line feed are one line end (`BreaksInto`). **Its lines are those it is made of**
(`lines_eq_of_breaksInto`). The lines are counted by all line ends of Unicode and places in a text
by line feeds alone, and both go together: as many lines as there are line feeds before a character
end before it, and the character stands on one more (`count_lt_lineCount`).
-/

namespace ProjectSurvey.Text

/-! ### The lines of a text -/

/-- Whether a text goes on one line. -/
def IsOneLine (cs : List Char) : Prop := ∀ c ∈ cs, isLineEnd c = false

instance (cs : List Char) : Decidable (IsOneLine cs) :=
  decidable_of_iff (cs.all (fun c => !isLineEnd c) = true) (by simp [IsOneLine])

/-- Whether a line ends with `ending` in front of `rest`. -/
def EndsLine (ending rest : List Char) : Prop :=
  ending = ['\r', '\n'] ∨
    ∃ c, ending = [c] ∧ isLineEnd c = true ∧ ¬ (c = '\r' ∧ rest.head? = some '\n')

/-- Whether a text breaks into some lines. -/
inductive BreaksInto : List Char → List (List Char) → Prop
  /-- Nothing is no line. -/
  | nil : BreaksInto [] []
  /-- The last line may stand without an end. -/
  | last {l : List Char} (hne : l ≠ []) (hl : IsOneLine l) : BreaksInto l [l]
  /-- A line with its end goes before the others. -/
  | line {l ending rest : List Char} {ls : List (List Char)} (hl : IsOneLine l)
      (hend : EndsLine ending rest) (hrest : BreaksInto rest ls) :
      BreaksInto (l ++ (ending ++ rest)) (l :: ls)

/-- A character ends the line, ends it with the feed before, or goes in front of it. -/
theorem lineStep_eq (c : Char) (ls : List (List Char)) (feed : Bool) : lineStep c (ls, feed) =
    if c = '\r' ∧ feed = true then (ls, false)
    else if isLineEnd c then ([] :: ls, c == '\n')
    else ((c :: ls.headD []) :: ls.tail, false) := by
  cases ls <;> rfl

/-- All that is remembered of what follows is whether a line feed comes next. -/
theorem foldr_lineStep_eq (cs : List Char) :
    cs.foldr lineStep ([], false) = (lines cs, cs.head? == some '\n') := by
  refine Prod.ext rfl ?_
  cases cs with
  | nil => rfl
  | cons c cs =>
    have hfeed : isLineEnd '\n' = true := by decide
    rw [List.foldr_cons, ← Prod.eta (cs.foldr lineStep ([], false)), lineStep_eq]
    by_cases hc : c = '\n'
    · simp [hc, hfeed]
    · split
      · simp [hc]
      · split <;> simp [hc]

/-- The lines of a text are those of its rest with one more character. -/
theorem lines_cons (c : Char) (cs : List Char) :
    lines (c :: cs) = (lineStep c (lines cs, cs.head? == some '\n')).1 := by
  rw [← foldr_lineStep_eq]
  rfl

/-- A line end starts another line, unless a line feed behind a carriage return does. -/
theorem lines_cons_of_isLineEnd {c : Char} {cs : List Char} (hc : isLineEnd c = true)
    (h : ¬ (c = '\r' ∧ cs.head? = some '\n')) : lines (c :: cs) = [] :: lines cs := by
  rw [lines_cons, lineStep_eq, if_neg (by simpa using h), if_pos hc]

/-- A carriage return and a line feed end one line together. -/
theorem lines_crlf (cs : List Char) : lines ('\r' :: '\n' :: cs) = [] :: lines cs := by
  rw [lines_cons, lineStep_eq, if_pos (by simp)]
  exact lines_cons_of_isLineEnd (by decide) (by simp)

/-- A character that ends no line stands on the first one. -/
theorem lines_cons_of_not_isLineEnd {c : Char} (hc : isLineEnd c = false) (cs : List Char) :
    lines (c :: cs) = (c :: (lines cs).headD []) :: (lines cs).tail := by
  have hno : ¬ (c = '\r' ∧ (cs.head? == some '\n') = true) := by
    rintro ⟨rfl, -⟩
    exact absurd hc (by decide)
  rw [lines_cons, lineStep_eq, if_neg hno, if_neg (by simp [hc])]

/-- A text without line ends goes in front of the first line. -/
theorem lines_append {l : List Char} (hne : l ≠ []) (hl : IsOneLine l) (cs : List Char) :
    lines (l ++ cs) = (l ++ (lines cs).headD []) :: (lines cs).tail := by
  induction l with
  | nil => exact absurd rfl hne
  | cons c l ih =>
    obtain ⟨hc, hl⟩ := List.forall_mem_cons.mp hl
    rw [List.cons_append, lines_cons_of_not_isLineEnd hc]
    rcases eq_or_ne l [] with rfl | hne'
    · rfl
    · rw [ih hne' hl]
      rfl

/-- A line with its ending is the first of the lines. -/
theorem lines_append_endsLine {l ending rest : List Char} (hl : IsOneLine l)
    (hend : EndsLine ending rest) : lines (l ++ (ending ++ rest)) = l :: lines rest := by
  have hfirst : lines (ending ++ rest) = [] :: lines rest := by
    rcases hend with rfl | ⟨c, rfl, hc, hno⟩
    · exact lines_crlf rest
    · exact lines_cons_of_isLineEnd hc hno
  rcases eq_or_ne l [] with rfl | hne
  · exact hfirst
  · rw [lines_append hne hl, hfirst]
    simp

/-- **The lines of a text are those that it breaks into.** -/
theorem lines_eq_of_breaksInto {text : List Char} {ls : List (List Char)} (h : BreaksInto text ls) :
    lines text = ls := by
  induction h with
  | nil => rfl
  | @last l hne hl =>
    have hlines := lines_append hne hl []
    simpa [lines] using hlines
  | line hl hend hrest ih => rw [lines_append_endsLine hl hend, ih]

/-- Lines with a line feed behind each are those that the text breaks into. -/
theorem breaksInto_feeds {ls : List (List Char)} (h : ∀ l ∈ ls, IsOneLine l) :
    BreaksInto (ls.flatMap (· ++ ['\n'])) ls := by
  induction ls with
  | nil => exact .nil
  | cons l ls ih =>
    obtain ⟨hl, hls⟩ := List.forall_mem_cons.mp h
    rw [List.flatMap_cons, List.append_assoc]
    exact .line hl (.inr ⟨'\n', rfl, by decide, by simp⟩) (ih hls)

/-! ### Line feeds and lines -/

/-- A text with something in it has a line. -/
theorem lineCount_cons_pos (c : Char) (cs : List Char) : 1 ≤ lineCount (c :: cs) := by
  unfold lineCount
  cases hc : isLineEnd c with
  | false => simp [lines_cons_of_not_isLineEnd hc]
  | true =>
    by_cases h : c = '\r' ∧ cs.head? = some '\n'
    · obtain ⟨rfl, hhead⟩ := h
      obtain ⟨rest, rfl⟩ := List.head?_eq_some_iff.mp hhead
      simp [lines_crlf]
    · simp [lines_cons_of_isLineEnd hc h]

/-- A further character takes no line away. -/
theorem lineCount_le_cons (c : Char) (cs : List Char) : lineCount cs ≤ lineCount (c :: cs) := by
  unfold lineCount
  cases hc : isLineEnd c with
  | false =>
    rw [lines_cons_of_not_isLineEnd hc, List.length_cons, List.length_tail]
    omega
  | true =>
    by_cases h : c = '\r' ∧ cs.head? = some '\n'
    · obtain ⟨rfl, hhead⟩ := h
      obtain ⟨rest, rfl⟩ := List.head?_eq_some_iff.mp hhead
      simp [lines_crlf, lines_cons_of_isLineEnd (c := '\n') (by decide) (by simp)]
    · simp [lines_cons_of_isLineEnd hc h]

/-- A line feed in front makes one more line. -/
theorem lineCount_cons_feed (cs : List Char) : lineCount ('\n' :: cs) = lineCount cs + 1 := by
  unfold lineCount
  rw [lines_cons_of_isLineEnd (by decide) (by simp), List.length_cons]

/-- **A text has more lines than line feeds before any of its characters.** -/
theorem count_lt_lineCount (front back : List Char) (c : Char) :
    front.count '\n' < lineCount (front ++ c :: back) := by
  induction front with
  | nil => exact lineCount_cons_pos c back
  | cons x front ih =>
    rw [List.cons_append]
    by_cases hx : x = '\n'
    · rw [hx, lineCount_cons_feed, List.count_cons_self]
      omega
    · have hmore := lineCount_le_cons x (front ++ c :: back)
      rw [List.count_cons_of_ne hx]
      omega

end ProjectSurvey.Text
