import ProjectSurvey.Text.Chars

/-!
# Lines

Where a text breaks into lines. **Two rules live here**: `lines` breaks at every line end of
Unicode and at the separators `0x1c` to `0x1e`, a carriage return followed by a line feed counting
once, and a break at the very end opens no further line; `unifyLineEnds` is what opening a file as
text does, carriage returns become line feeds.
-/

namespace ProjectSurvey.Text

/-- The characters that end a line. -/
def isLineEnd (c : Char) : Bool :=
  let n := c.toNat
  (10 ≤ n && n ≤ 13) || (28 ≤ n && n ≤ 30) || n == 0x85 || n == 0x2028 || n == 0x2029

/-- The step of `lines`, from the right: the lines of what follows, and whether it begins with a
line feed, so that a carriage return before it ends no line of its own. -/
def lineStep (c : Char) : List (List Char) × Bool → List (List Char) × Bool
  | (ls, feed) =>
    if c = '\r' ∧ feed = true then (ls, false)
    else if isLineEnd c then ([] :: ls, c == '\n')
    else match ls with
      | [] => ([[c]], false)
      | l :: ls => ((c :: l) :: ls, false)

/-- The lines of a text, without their ends. -/
def lines (cs : List Char) : List (List Char) := (cs.foldr lineStep ([], false)).1

/-- How many lines a text has. -/
def lineCount (cs : List Char) : Nat := (lines cs).length

/-- The step of `unifyLineEnds`, from the right. -/
def unifyStep (c : Char) : List Char × Bool → List Char × Bool
  | (cs, feed) =>
    if c = '\r' then (if feed then (cs, false) else ('\n' :: cs, false))
    else (c :: cs, c == '\n')

/-- The text with every carriage return, alone or before a line feed, made a line feed. -/
def unifyLineEnds (cs : List Char) : List Char := (cs.foldr unifyStep ([], false)).1

end ProjectSurvey.Text
