import ProjectSurvey.Data.Calendar

/-!
# Why a YAML text gives no value

The ways in which reading YAML ends without a value. **Most texts that are refused are simply
malformed**; the other causes are scalars that were announced as, or look like, a number, a date or
a character and are none.
-/

namespace ProjectSurvey.Yaml

/-- Why a text gives no value. -/
inductive Fault where
  /-- The text does not follow the rules. -/
  | malformed
  /-- Containers nest too deeply. -/
  | tooDeep
  /-- An escape gives the number of no character. -/
  | noCharacter (number : Nat)
  /-- A scalar is no integer in the base. -/
  | noInteger (base : Nat) (text : String)
  /-- An integer has more digits than `Text.digitLimit`. -/
  | longInteger (digits : Nat)
  /-- A scalar is no number. -/
  | noReal (text : String)
  /-- A number to the base of sixty has a part whose weight is beyond all doubles. -/
  | hugeWeight
  /-- A scalar that should be a number holds no character of one. -/
  | emptyNumber
  /-- A scalar is no truth value. -/
  | noTruthValue (text : String)
  /-- A scalar has not the shape of a date. -/
  | noMoment
  /-- A date is announced for what is no scalar. -/
  | momentOfMapping
  /-- A scalar has the shape of a date that does not exist. -/
  | badMoment (fault : MomentFault)
  deriving DecidableEq

end ProjectSurvey.Yaml
