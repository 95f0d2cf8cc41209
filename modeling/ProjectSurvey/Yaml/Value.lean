import ProjectSurvey.Data.Datum
import ProjectSurvey.Digest.Base64
import ProjectSurvey.Yaml.Fault
import ProjectSurvey.Yaml.Tag

/-!
# Values of YAML

What a node of a YAML text stands for, and the values of scalars. **A container is a name and not
its content**: what it holds is looked up in a `Document`, so that containers may hold each other
and be filled one after the other.
-/

namespace ProjectSurvey.Yaml

open Pattern

/-- A value. -/
inductive Value where
  /-- Nothing. -/
  | null
  /-- A truth value. -/
  | bool (b : Bool)
  /-- An integer. -/
  | int (n : Int)
  /-- A double. -/
  | real (x : Binary64)
  /-- A text. -/
  | text (s : String)
  /-- Octets. -/
  | octets (bytes : List UInt8)
  /-- A date, with a time or without. -/
  | moment
  /-- The container that the node of a number stands for. -/
  | container (node : Nat)
  deriving Inhabited

namespace Value

/-- Whether a value may be a key. -/
def canBeKey : Value → Bool
  | container _ => false
  | _ => true

/-- Whether a value is the given text. -/
def isText (s : String) : Value → Bool
  | text t => t == s
  | _ => false

end Value

/-! ## Values of scalars -/

/-- The value of a truth value in any case. -/
def truthValue (text : String) : Except Fault Value :=
  let lowered := Text.lowered text
  if ["yes", "true", "on"].contains lowered then .ok (.bool true)
  else if ["no", "false", "off"].contains lowered then .ok (.bool false)
  else .error (.noTruthValue lowered)

/-- The character of a digit of any script; other characters stay. -/
def asciiDigit (c : Char) : Char :=
  match Text.decimalValue? c with
  | some n => Char.ofNat (48 + n)
  | none => c

/-- The number that digits of a base write, behind a mark of the base if there is one. -/
def digitsOf? (base : Nat) (cs : List Char) : Option Nat :=
  let marks := match base with
    | 2 => "bB"
    | 8 => "oO"
    | 16 => "xX"
    | _ => ""
  match cs with
  | '0' :: m :: rest =>
    if marks.toList.contains m then Text.number? base rest else Text.number? base cs
  | _ => Text.number? base cs

/-- The integer that a text without underscores writes to a base. Of an integer to the base of ten
the length of its digits is looked at before what follows them. -/
def integerOf (base : Nat) (cs : List Char) : Except Fault Int :=
  let (negative, digits) := match Text.stripNumber cs with
    | '-' :: r => (true, r)
    | '+' :: r => (false, r)
    | r => (false, r)
  let length := (digits.takeWhile Text.isDecimal).length
  if base = 10 ∧ length > Text.digitLimit then .error (.longInteger length)
  else
    match digitsOf? base (digits.map asciiDigit) with
    | none => .error (.noInteger base (String.ofList cs))
    | some n => .ok (if negative then -(n : Int) else n)

/-- The value of parts to the base of sixty, the first one the most significant. -/
def sexagesimal (parts : List Int) : Int := parts.foldl (fun n d => n * 60 + d) 0

/-- The sign in front of a number, and the rest; nothing for an empty text. -/
def signed? (cs : List Char) : Option (Bool × List Char) :=
  match cs with
  | '-' :: r => some (true, r)
  | '+' :: r => some (false, r)
  | [] => none
  | r => some (false, r)

/-- The value of an integer without its sign. -/
def magnitudeOf (cs : List Char) : Except Fault Int :=
  match cs with
  | [] => .error .emptyNumber
  | ['0'] => .ok 0
  | '0' :: 'b' :: r => integerOf 2 r
  | '0' :: 'x' :: r => integerOf 16 r
  | '0' :: _ => integerOf 8 cs
  | _ =>
    if cs.contains ':' then do
      .ok (sexagesimal (← (Text.pieces ':' cs).mapM (integerOf 10)))
    else integerOf 10 cs

/-- The value of an integer. -/
def integerValue (text : String) : Except Fault Value :=
  match signed? (text.toList.filter (· != '_')) with
  | none => .error .emptyNumber
  | some (negative, cs) => do
    let n ← magnitudeOf cs
    .ok (.int (if negative then -n else n))

/-- A decimal number, its parts remembered. -/
def decimalShape : Pattern :=
  group 1 (many CharSet.digit) ++ opt (lit "." ++ group 2 (many CharSet.digit)) ++
    opt (char (CharSet.anyOf "eE") ++ group 3 (Shape.sign ++ plus CharSet.digit)) ++ textEnd

/-- The values of the digits of a text, of any script. -/
def digitValues (cs : List Char) : List Nat := cs.map fun c => (Text.decimalValue? c).getD 0

/-- The number that the digits of a text write, of any script. -/
def digitsNumber (cs : List Char) : Nat := (digitValues cs).foldl (fun n d => n * 10 + d) 0

/-- The double that a text in lower case writes. -/
def realOf (cs : List Char) : Except Fault Binary64 :=
  let (negative, digits) := (signed? (Text.stripNumber cs)).getD (false, [])
  if digits = "inf".toList ∨ digits = "infinity".toList then .ok (.infinite negative)
  else if digits = "nan".toList then .ok .nan
  else
    match decimalShape.atStart? digits with
    | none => .error (.noReal (String.ofList cs))
    | some m =>
      let (whole, part) := (m.groupText 1, m.groupText 2)
      if (whole ++ part).isEmpty ∨ digits.getLast? = some '\n' then
        .error (.noReal (String.ofList cs))
      else
        let power : Int := match signed? (m.groupText 3) with
          | some (minus, ds) => if minus then -(digitsNumber ds : Int) else digitsNumber ds
          | none => 0
        .ok (Binary64.ofDigits negative (digitValues (whole ++ part)) (power - part.length))

/-- The value of parts to the base of sixty, added up from the least significant one. A part whose
weight is beyond all doubles is a fault. -/
def sexagesimalReal (parts : List Binary64) : Except Fault Binary64 :=
  go (Binary64.zero false) 1 parts.reverse
where
  /-- The value of the parts to come, of which the first has the given weight. -/
  go (sum : Binary64) (weight : Int) : List Binary64 → Except Fault Binary64
    | [] => .ok sum
    | d :: ds =>
      match Binary64.ofInt weight with
      | .finite s m e => go (sum.add (d.mul (.finite s m e))) (weight * 60) ds
      | _ => .error .hugeWeight

/-- The value of a double. -/
def realValue (text : String) : Except Fault Value :=
  match signed? (Text.lower (text.toList.filter (· != '_'))) with
  | none => .error .emptyNumber
  | some (negative, cs) =>
    let withSign (x : Binary64) : Value := .real (if negative then x.neg else x)
    if cs = ".inf".toList then .ok (withSign (.infinite false))
    else if cs = ".nan".toList then .ok (.real .nan)
    else if cs.contains ':' then do
      .ok (withSign (← sexagesimalReal (← (Text.pieces ':' cs).mapM realOf)))
    else do .ok (withSign (← realOf cs))

/-- The shape of a date, its parts remembered. -/
def momentShape : Pattern :=
  group 1 (times 4 Shape.digit) ++ lit "-" ++ group 2 Shape.twoDigits ++ lit "-" ++
    group 3 Shape.twoDigits ++
    opt (Shape.dateTimeGap ++ group 4 Shape.twoDigits ++ lit ":" ++
      group 5 (times 2 Shape.digit) ++ lit ":" ++ group 6 (times 2 Shape.digit) ++
      opt (lit "." ++ many Shape.digit) ++
      opt (many Shape.gaps ++ (lit "Z" |||
        (group 7 (char (CharSet.anyOf "-+")) ++ group 8 Shape.twoDigits ++
          opt (lit ":" ++ group 9 (times 2 Shape.digit)))))) ++ textEnd

/-- The value of a date. -/
def momentValue (text : String) : Except Fault Value :=
  match momentShape.atStart? text.toList with
  | none => .error .noMoment
  | some m =>
    let number (n : Nat) : Nat := (Text.number? 10 (m.groupText n)).getD 0
    let distance := Duration.ofMinutes (number 8 * 60 + number 9 : Nat)
    let m : Moment :=
      { date := ⟨number 1, number 2, number 3⟩
        time := ⟨number 4, number 5, number 6, 0⟩
        offset := some (if m.groupText 7 = ['-'] then -distance else distance) }
    match m.fault? with
    | some f => .error (.badMoment f)
    | none => .ok .moment

/-- The value of octets. -/
def octetsValue (text : String) : Except Fault Value :=
  if text.toList.all fun c => c.toNat < 128 then
    match Base64.decodeForgiving? (text.toList) with
    | some bytes => .ok (.octets bytes)
    | none => .error .malformed
  else .error .malformed

/-- The value of a scalar with a tag; a tag of containers fits no scalar. -/
def scalarValue (tag : Tag) (text : String) : Except Fault Value :=
  match tag with
  | .null => .ok .null
  | .bool => truthValue text
  | .int => integerValue text
  | .float => realValue text
  | .binary => octetsValue text
  | .timestamp => momentValue text
  | .str => .ok (.text text)
  | _ => .error .malformed

end ProjectSurvey.Yaml
