import ProjectSurvey.Text.Chars

/-!
# Blank characters

Which characters count as white space, trimming by them, and the words between them. **The class
is wider than core's**: beside blank, tab and the line ends it has the four information
separators `0x1c` to `0x1f`, next line, no-break space and the spaces of other scripts. Around a
number the separators do not count.
-/

namespace ProjectSurvey.Text

/-- White space of every script. -/
def isBlank (c : Char) : Bool :=
  let n := c.toNat
  (9 ≤ n && n ≤ 13) || (28 ≤ n && n ≤ 32) || n == 0x85 || n == 0xa0 || n == 0x1680 ||
    (0x2000 ≤ n && n ≤ 0x200a) || n == 0x2028 || n == 0x2029 || n == 0x202f || n == 0x205f ||
    n == 0x3000

/-- The white space that may stand around a number: all but the information separators. -/
def isNumberBlank (c : Char) : Bool := isBlank c && !(28 ≤ c.toNat && c.toNat ≤ 31)

/-- The text without blanks at either end. -/
def strip (cs : List Char) : List Char := trim isBlank cs

/-- The text of a number without the white space around it. -/
def stripNumber (cs : List Char) : List Char := trim isNumberBlank cs

/-- The maximal runs of characters that are not blank. -/
def words (cs : List Char) : List (List Char) :=
  let (first, others) := cs.foldr step ([], [])
  if first.isEmpty then others else first :: others
where
  /-- `current` is the word being read from the right, `done` the words after it. -/
  step (c : Char) : List Char × List (List Char) → List Char × List (List Char)
    | (current, done) =>
      if isBlank c then
        ([], if current.isEmpty then done else current :: done)
      else (c :: current, done)

end ProjectSurvey.Text
