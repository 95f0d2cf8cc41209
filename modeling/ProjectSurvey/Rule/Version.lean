import ProjectSurvey.Pattern.Basic

/-!
# Version numbers

The first dotted number in a version specification, as a list of at least three parts. Versions are
compared part by part, a version that ends first being the smaller one. **A part of more digits than
`Text.digitLimit` is refused** and not read as some other number.
-/

namespace ProjectSurvey

/-- The parts of a version number. -/
abbrev Version := List Nat

namespace Version

open Pattern

/-- A dotted number. -/
def dotted : Pattern :=
  plus CharSet.digit ++ rounds (lit "." ++ plus CharSet.digit)

/-- One part of a version; the number of its digits if there are too many. -/
def part (digits : List Char) : Except Nat Nat :=
  if digits.length ≤ Text.digitLimit then .ok ((Text.digitsValue? digits).getD 0)
  else .error digits.length

/-- The parts padded with zeros to three. -/
def pad (parts : List Nat) : Version := parts ++ List.replicate (3 - parts.length) 0

/-- The first dotted number of a text; none if it has no digit. -/
def parse (spec : String) : Except Nat (Option Version) :=
  match dotted.find? spec.toList with
  | none => .ok none
  | some m => ((Text.pieces '.' m.text).mapM part).map fun parts => some (pad parts)

end Version

end ProjectSurvey
