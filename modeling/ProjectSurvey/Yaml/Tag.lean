import ProjectSurvey.Pattern.Basic

/-!
# Tags of YAML

What the tag of a node says about its value. A plain scalar without tag gets one from its shape:
`Shape.tagOf` gives the first tag of the list whose pattern fits. **The shape of a scalar decides
its tag, not its value**, so a date that does not exist is a fault and not a text.
-/

namespace ProjectSurvey.Yaml

open Pattern

/-- The tags that tell what a node stands for. -/
inductive Tag where
  /-- Nothing. -/
  | null
  /-- Truth values. -/
  | bool
  /-- Integers. -/
  | int
  /-- Doubles. -/
  | float
  /-- Octets. -/
  | binary
  /-- Dates. -/
  | timestamp
  /-- Mappings in order. -/
  | omap
  /-- Lists of pairs. -/
  | pairs
  /-- Sets. -/
  | set
  /-- Texts. -/
  | str
  /-- Lists. -/
  | seq
  /-- Mappings. -/
  | map
  /-- The key that merges other mappings into one. -/
  | merge
  /-- The key of a default value. -/
  | value
  /-- Any other tag, which has no value. -/
  | unknown
  deriving DecidableEq

namespace Tag

/-- Whether a value with the tag is a container. -/
def isContainer : Tag → Bool
  | seq => true
  | map => true
  | set => true
  | omap => true
  | pairs => true
  | _ => false

/-- Whether a value with the tag is made from a text. -/
def isScalar : Tag → Bool
  | null => true
  | bool => true
  | int => true
  | float => true
  | binary => true
  | timestamp => true
  | str => true
  | _ => false

end Tag

/-- What the names of the tags with values begin with. -/
def tagSpace : String := "tag:yaml.org,2002:"

/-- The tags by their names. -/
def tagNames : List (String × Tag) := [
  ("null", .null), ("bool", .bool), ("int", .int), ("float", .float), ("binary", .binary),
  ("timestamp", .timestamp), ("omap", .omap), ("pairs", .pairs), ("set", .set), ("str", .str),
  ("seq", .seq), ("map", .map), ("merge", .merge), ("value", .value)]

/-- The tag of a full name. -/
def Tag.ofName (name : String) : Tag :=
  match Text.after? tagSpace.toList name.toList with
  | some short => ((tagNames.find? fun p => p.1.toList = short).map Prod.snd).getD .unknown
  | none => .unknown

/-! ## Shapes of plain scalars -/

namespace Shape

/-- An optional sign. -/
def sign : Pattern := opt (char (CharSet.anyOf "-+"))

/-- ASCII digits. -/
def digit : CharSet := Text.isAsciiDigit

/-- ASCII digits and underscores. -/
def spaced : CharSet := CharSet.or digit (CharSet.only '_')

/-- Further parts of a number to the base of sixty. -/
def sixtieths : Pattern :=
  rounds (lit ":" ++ opt (char (CharSet.span '0' '5')) ++ char digit)

/-- One part or more of a number to the base of sixty. -/
def someSixtieths : Pattern :=
  lit ":" ++ opt (char (CharSet.span '0' '5')) ++ char digit ++ sixtieths

/-- Truth values. -/
def truth : Pattern := oneOf [
  "yes", "Yes", "YES", "no", "No", "NO", "true", "True", "TRUE", "false", "False", "FALSE",
  "on", "On", "ON", "off", "Off", "OFF"]

/-- The exponent of a double, with a sign. -/
def exponent : Pattern :=
  opt (char (CharSet.anyOf "eE") ++ char (CharSet.anyOf "-+") ++ plus digit)

/-- Doubles. -/
def float : Pattern := firstOf [
  sign ++ char digit ++ many spaced ++ lit "." ++ many spaced ++ exponent,
  lit "." ++ char digit ++ many spaced ++ exponent,
  sign ++ char digit ++ many spaced ++ someSixtieths ++ lit "." ++ many spaced,
  sign ++ lit "." ++ oneOf ["inf", "Inf", "INF"],
  lit "." ++ oneOf ["nan", "NaN", "NAN"]]

/-- Integers. -/
def int : Pattern := firstOf [
  sign ++ lit "0b" ++ plus (CharSet.anyOf "01_"),
  sign ++ lit "0" ++ plus (CharSet.anyOf "01234567_"),
  sign ++ (lit "0" ||| (char (CharSet.span '1' '9') ++ many spaced)) ++ textEnd,
  sign ++ lit "0x" ++ plus (CharSet.anyOf "0123456789abcdefABCDEF_"),
  sign ++ char (CharSet.span '1' '9') ++ many spaced ++ someSixtieths]

/-- Nothing. -/
def null : Pattern := firstOf [oneOf ["~", "null", "Null", "NULL"], empty]

/-- One digit or two. -/
def twoDigits : Pattern := char digit ++ opt (char digit)

/-- Blanks and tabs. -/
def gaps : CharSet := CharSet.anyOf " \t"

/-- What stands between a date and a time. -/
def dateTimeGap : Pattern := char (CharSet.anyOf "Tt") ||| plus gaps

/-- Dates. -/
def timestamp : Pattern := firstOf [
  times 4 digit ++ lit "-" ++ times 2 digit ++ lit "-" ++ times 2 digit ++ textEnd,
  times 4 digit ++ lit "-" ++ twoDigits ++ lit "-" ++ twoDigits ++ dateTimeGap ++ twoDigits ++
    lit ":" ++ times 2 digit ++ lit ":" ++ times 2 digit ++ opt (lit "." ++ many digit) ++
    opt (many gaps ++ (lit "Z" ||| (char (CharSet.anyOf "-+") ++ twoDigits ++
      opt (lit ":" ++ times 2 digit))))]

/-- Whether a whole text has a shape. -/
def fits (p : Pattern) (text : List Char) : Bool := ((p ++ textEnd).atStart? text).isSome

/-- The shapes, each with the characters that may begin it (`none` for the empty text) and its
tag, in the order in which they are tried. -/
def all : List (String × Pattern × Tag) := [
  ("yYnNtTfFoO", truth, .bool),
  ("-+0123456789.", float, .float),
  ("-+0123456789", int, .int),
  ("<", lit "<<", .merge),
  ("~nN", null, .null),
  ("0123456789", timestamp, .timestamp),
  ("=", lit "=", .value),
  ("!&*", oneOf ["!", "&", "*"], .unknown)]

/-- The tag that the shape of a plain scalar gives it. -/
def tagOf (text : List Char) : Tag :=
  match text with
  | [] => .null
  | c :: _ =>
    ((all.find? fun (starts, p, _) => starts.toList.contains c && fits p text).map
      fun (_, _, t) => t).getD .str

end Shape

end ProjectSurvey.Yaml
