import ProjectSurvey.Text.CharacterBounds
import ProjectSurvey.Text.Blank

/-!
# Word characters, digits and visible characters

The three classes of Unicode that patterns and printers ask for. **ASCII is decided here by
comparison and everything else by the tables of `Text.CharacterBounds`**; a decimal digit of any
script has a value, and every decimal digit is a word character of the tables.
-/

namespace ProjectSurvey.Text

/-- An ASCII letter or digit. -/
def isAsciiAlnum (c : Char) : Bool :=
  ('a' ≤ c && c ≤ 'z') || ('A' ≤ c && c ≤ 'Z') || ('0' ≤ c && c ≤ '9')

/-- An ASCII letter. -/
def isAsciiLetter (c : Char) : Bool := ('a' ≤ c && c ≤ 'z') || ('A' ≤ c && c ≤ 'Z')

/-- An ASCII digit. -/
def isAsciiDigit (c : Char) : Bool := '0' ≤ c && c ≤ '9'

/-- A letter or numeric character of any script, or the underscore. -/
def isWord (c : Char) : Bool :=
  if c.toNat < 128 then isAsciiAlnum c || c == '_' else inBounds c.toNat wordBounds

/-- The value of a decimal digit of any script. -/
def decimalValue? (c : Char) : Option Nat :=
  let n := c.toNat
  if n < 128 then (if 48 ≤ n ∧ n ≤ 57 then some (n - 48) else none)
  else (decimalZeros.find? fun z => decide (z ≤ n) && decide (n ≤ z + 9)).map (n - ·)

/-- A decimal digit of any script. -/
def isDecimal (c : Char) : Bool := (decimalValue? c).isSome

/-- A character with a visible form, or the blank. -/
def isPrintable (c : Char) : Bool :=
  if c.toNat < 128 then 32 ≤ c.toNat && c.toNat < 127 else inBounds c.toNat printableBounds

/-! ## Integers as people write them -/

/-- The longest run of digits that is read as a number. -/
def digitLimit : Nat := 4300

/-- The value of digits of any script with single underscores between them. -/
def digitsValue? (cs : List Char) : Option Nat :=
  go none cs
where
  /-- The value of the rest of the digits, `acc` being the value of those before; `none` at the
  start. -/
  go : Option Nat → List Char → Option Nat
    | acc, [] => acc
    | acc, c :: cs =>
      match decimalValue? c with
      | some d => go (some ((acc.getD 0) * 10 + d)) cs
      | none =>
        match c, acc, cs with
        | '_', some n, d :: rest =>
          match decimalValue? d with
          | some v => go (some (n * 10 + v)) rest
          | none => none
        | _, _, _ => none

/-- An integer with blanks around it, a sign in front and underscores between digits, when it has
no more than `digitLimit` digits. -/
def integer? (cs : List Char) : Option Int :=
  let (negative, digits) := match stripNumber cs with
    | '-' :: r => (true, r)
    | '+' :: r => (false, r)
    | r => (false, r)
  if (digits.filter (· != '_')).length ≤ digitLimit then
    (digitsValue? digits).map fun n => if negative then -(n : Int) else (n : Int)
  else none

end ProjectSurvey.Text
