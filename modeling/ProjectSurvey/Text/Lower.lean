import ProjectSurvey.Text.CaseTable
import ProjectSurvey.Text.CharacterBounds

/-!
# Lower case

The lower-case form of a text. **A text may grow or a letter may depend on its neighbours**: a
capital sigma at the end of a word becomes the final form, and the dotted capital I becomes two
characters. On ASCII the rule is the familiar one.
-/

namespace ProjectSurvey.Text

/-- The lower-case partner of one letter, by its code point alone. -/
def lowerChar (c : Char) : Char :=
  let n := c.toNat
  if n < 128 then (if 65 ≤ n ∧ n ≤ 90 then Char.ofNat (n + 32) else c)
  else
    match caseRuns.find? fun r => decide (r.first ≤ n) && decide (n ≤ r.last) &&
        (n - r.first) % r.step == 0 with
    | some r => Char.ofNat (n + r.offset).toNat
    | none => c

/-- Whether the nearest character that is not skipped is cased. -/
def nextIsCased : List Char → Bool
  | [] => false
  | c :: cs =>
    if inBounds c.toNat skippedBounds then nextIsCased cs else inBounds c.toNat casedBounds

/-- The lower-case form of `c` after the characters `before` (nearest first) and in front of
`rest`. -/
def lowerAt (before : List Char) (c : Char) (rest : List Char) : List Char :=
  if c.toNat = 0x130 then ['i', Char.ofNat 0x307]
  else if c.toNat = 0x3a3 then
    [if nextIsCased before && !(nextIsCased rest) then Char.ofNat 0x3c2 else Char.ofNat 0x3c3]
  else [lowerChar c]

/-- The lower-case form of a text. -/
def lower (cs : List Char) : List Char :=
  go [] [] cs
where
  /-- `before` are the characters passed and `acc` the result so far, both last one first. -/
  go (before acc : List Char) : List Char → List Char
    | [] => acc.reverse
    | c :: cs => go (c :: before) ((lowerAt before c cs).reverse ++ acc) cs

/-- The lower-case form of a string. -/
def lowered (s : String) : String := String.ofList (lower s.toList)

end ProjectSurvey.Text
