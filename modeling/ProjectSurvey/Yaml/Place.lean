import ProjectSurvey.Text.Classes

/-!
# Places in a YAML text

A place knows what follows it, how many characters precede it, and its line and column, because
indentation is part of the grammar. **A byte order mark takes up no column.** The character classes
that decide where scalars end are here too.
-/

namespace ProjectSurvey.Yaml

/-- The characters that break a line. -/
def isBreak (c : Char) : Bool :=
  c == '\n' || c == '\r' || c.toNat == 0x85 || c.toNat == 0x2028 || c.toNat == 0x2029

/-- The byte order mark. -/
def byteOrderMark : Char := Char.ofNat 0xfeff

/-- The characters that may stand in a text. -/
def isAllowed (c : Char) : Bool :=
  let n := c.toNat
  n == 9 || n == 10 || n == 13 || (0x20 ≤ n && n ≤ 0x7e) || n == 0x85 ||
    (0xa0 ≤ n && n ≤ 0xfffd) || 0x10000 ≤ n

/-- A break or the end. -/
def breaksOrEnds : Option Char → Bool
  | none => true
  | some c => isBreak c

/-- A blank, a break or the end. -/
def spacesOrEnds : Option Char → Bool
  | none => true
  | some c => c == ' ' || isBreak c

/-- A blank, a tab, a break or the end. -/
def gapsOrEnds : Option Char → Bool
  | none => true
  | some c => c == ' ' || c == '\t' || isBreak c

/-- A place in a text. -/
structure Place where
  /-- What follows. -/
  rest : List Char
  /-- How many characters precede it. -/
  index : Nat
  /-- Its line, from 0 on. -/
  line : Nat
  /-- Its column, from 0 on. -/
  column : Nat

namespace Place

/-- The start of a text. -/
def start (cs : List Char) : Place := ⟨cs, 0, 0, 0⟩

/-- The next character. -/
def peek (p : Place) : Option Char := p.rest.head?

/-- The character after `n` others. -/
def peekAt (p : Place) (n : Nat) : Option Char := p.rest[n]?

/-- Whether the next character is the given one. -/
def isAt (p : Place) (c : Char) : Bool := p.peek == some c

/-- Whether the next character is one of a class. -/
def isIn (p : Place) (f : Char → Bool) : Bool :=
  match p.peek with
  | some c => f c
  | none => false

/-- The place one character on. -/
def next (p : Place) : Place :=
  match p.rest with
  | [] => p
  | c :: rest =>
    if isBreak c && !(c == '\r' && rest.head? == some '\n') then
      ⟨rest, p.index + 1, p.line + 1, 0⟩
    else ⟨rest, p.index + 1, p.line, if c = byteOrderMark then p.column else p.column + 1⟩

/-- The place `n` characters on. -/
def skip : Nat → Place → Place
  | 0, p => p
  | n + 1, p => skip n p.next

/-- The place behind the leading characters of a class. -/
def skipWhile (f : Char → Bool) (p : Place) : Place := skip (p.rest.takeWhile f).length p

/-- The leading characters of a class and the place behind them. -/
def takeWhile (f : Char → Bool) (p : Place) : List Char × Place :=
  let cs := p.rest.takeWhile f
  (cs, p.skip cs.length)

/-- A line break, read as a line feed unless it is one of the separators of lines and paragraphs,
and the place behind it; nothing if none is next. -/
def lineBreak? (p : Place) : Option (Char × Place) :=
  match p.rest with
  | '\r' :: '\n' :: _ => some ('\n', p.skip 2)
  | c :: _ =>
    if isBreak c then
      some (if c.toNat = 0x2028 ∨ c.toNat = 0x2029 then c else '\n', p.next)
    else none
  | [] => none

/-- Whether three of the same character, followed by a gap or the end, are next. -/
def isMarker (c : Char) (p : Place) : Bool :=
  match p.rest with
  | a :: b :: d :: rest => a == c && b == c && d == c && gapsOrEnds rest.head?
  | _ => false

/-- Whether the marker of the start or the end of a document is next. -/
def isDocumentMarker (p : Place) : Bool := p.isMarker '-' || p.isMarker '.'

end Place

end ProjectSurvey.Yaml
