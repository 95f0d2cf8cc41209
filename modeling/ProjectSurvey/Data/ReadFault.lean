/-!
# Why a data file was not read

The ways in which a reader of a data format gives up. **Where in the text it gave up is not kept**;
no answer shows it.
-/

namespace ProjectSurvey

/-- Why a text was not read. -/
inductive ReadFault where
  /-- The text does not follow the rules of the format. -/
  | malformed
  /-- Containers nest too deeply. -/
  | tooDeep
  /-- An integer has more digits than `Text.digitLimit`. -/
  | longInteger (digits : Nat)
  deriving DecidableEq, Repr

/-- Something read from the front of a text and what follows it. -/
abbrev ReadResult (α : Type) := Except ReadFault (α × List Char)

end ProjectSurvey
