import ProjectSurvey.Data.ReadFault
import ProjectSurvey.Pattern.Basic
import ProjectSurvey.Toml.Moment

/-!
# Strings, numbers and dates of TOML

The values that are no containers, and the bare and quoted parts of keys. **A text is refused as
soon as it holds a control character in a string or an escape that means nothing.** Shapes of
numbers and dates are patterns; what they mean is computed from their groups.
-/

namespace ProjectSurvey.Toml

open Pattern

/-- Blanks inside a line. -/
def isGap (c : Char) : Bool := c == ' ' || c == '\t'

/-- Blanks and line ends. -/
def isSpace (c : Char) : Bool := isGap c || c == '\n'

/-- Control characters that may not stand in a string or a comment; `lineEnds` lets line feeds
pass. -/
def isIllegal (lineEnds : Bool) (c : Char) : Bool :=
  (c.toNat < 32 || c.toNat == 127) && c != '\t' && !(lineEnds && c == '\n')

/-- Characters of a bare key. -/
def isBareKey (c : Char) : Bool := Text.isAsciiAlnum c || c == '-' || c == '_'

/-! ## Strings -/

/-- What an escape letter stands for. -/
def escape? : Char → Option Char
  | 'b' => some (Char.ofNat 8)
  | 't' => some '\t'
  | 'n' => some '\n'
  | 'f' => some (Char.ofNat 12)
  | 'r' => some '\r'
  | '"' => some '"'
  | '\\' => some '\\'
  | _ => none

/-- The character of a run of hexadecimal digits, if it is one. -/
def scalar? (digits : List Char) : Option Char :=
  (Text.number? 16 digits).bind fun n =>
    if n < 0xd800 ∨ (0xe000 ≤ n ∧ n < 0x110000) then some (Char.ofNat n) else none

/-- What follows a backslash before blanks in a string of several lines: the blanks up to the next
character that is none, if a line end is among the first of them or the text ends. -/
def joinLines? (cs : List Char) : Option (List Char) :=
  match cs.dropWhile isGap with
  | [] => some []
  | '\n' :: rest => some (rest.dropWhile isSpace)
  | _ => none

/-- One character of a basic string, escapes evaluated, and what follows it. No character for an
escaped line end; nothing for what may not stand in a string. -/
def basicChar? (lineEnds : Bool) : List Char → Option (List Char × List Char)
  | [] => none
  | '\\' :: rest =>
    match rest with
    | 'u' :: a :: b :: c :: d :: rest => (scalar? [a, b, c, d]).map fun x => ([x], rest)
    | 'U' :: a :: b :: c :: d :: e :: f :: g :: h :: rest =>
      (scalar? [a, b, c, d, e, f, g, h]).map fun x => ([x], rest)
    | e :: tail =>
      if lineEnds && isSpace e then (joinLines? rest).map fun r => ([], r)
      else (escape? e).map fun x => ([x], tail)
    | [] => none
  | c :: rest => if isIllegal lineEnds c then none else some ([c], rest)

/-- A basic string on one line, after its opening quote. The fuel is the text. -/
def basicLine (acc : List Char) : (fuel cs : List Char) → ReadResult String
  | _, '"' :: rest => .ok (String.ofList acc.reverse, rest)
  | [], _ => .error .malformed
  | _ :: fuel, cs =>
    match basicChar? false cs with
    | some (xs, rest) => basicLine (xs ++ acc) fuel rest
    | none => .error .malformed

/-- Up to two more quotes that belong to a string of several lines. -/
def extraQuotes (quote : Char) (acc : List Char) (cs : List Char) : List Char × List Char :=
  match cs with
  | a :: b :: rest =>
    if a ≠ quote then (acc, cs)
    else if b = quote then (quote :: quote :: acc, rest)
    else (quote :: acc, b :: rest)
  | [a] => if a = quote then (quote :: acc, []) else (acc, cs)
  | [] => (acc, cs)

/-- A basic string of several lines, after its opening quotes. The fuel is the text. -/
def basicBlock (acc : List Char) : (fuel cs : List Char) → ReadResult String
  | _, '"' :: '"' :: '"' :: rest =>
    let (acc, rest) := extraQuotes '"' acc rest
    .ok (String.ofList acc.reverse, rest)
  | [], _ => .error .malformed
  | _ :: fuel, cs =>
    match basicChar? true cs with
    | some (xs, rest) => basicBlock (xs ++ acc) fuel rest
    | none => .error .malformed

/-- A literal string on one line, after its opening apostrophe. -/
def literalLine (cs : List Char) : ReadResult String :=
  let body := cs.takeWhile (· != '\'')
  match cs.dropWhile (· != '\'') with
  | [] => .error .malformed
  | _ :: rest =>
    if body.any (isIllegal false) then .error .malformed else .ok (String.ofList body, rest)

/-- A literal string of several lines, after its opening apostrophes. -/
def literalBlock (cs : List Char) : ReadResult String :=
  match Text.cut? "'''".toList cs with
  | none => .error .malformed
  | some (body, rest) =>
    if body.any (isIllegal true) then .error .malformed
    else
      let (acc, rest) := extraQuotes '\'' body.reverse rest
      .ok (String.ofList acc.reverse, rest)

/-- The text without a line end at its front. -/
def dropLineEnd : List Char → List Char
  | '\n' :: rest => rest
  | cs => cs

/-- A string, if one begins here. -/
def string? (cs : List Char) : Option (ReadResult String) :=
  match cs with
  | '"' :: '"' :: '"' :: rest => let body := dropLineEnd rest; some (basicBlock [] body body)
  | '"' :: rest => some (basicLine [] rest rest)
  | '\'' :: '\'' :: '\'' :: rest => some (literalBlock (dropLineEnd rest))
  | '\'' :: rest => some (literalLine rest)
  | _ => none

/-- One part of a key. -/
def keyPart (cs : List Char) : ReadResult String :=
  match cs with
  | '"' :: rest => basicLine [] rest rest
  | '\'' :: rest => literalLine rest
  | _ =>
    match cs.takeWhile isBareKey with
    | [] => .error .malformed
    | name => .ok (String.ofList name, cs.dropWhile isBareKey)

/-! ## Numbers -/

/-- An ASCII digit. -/
def digit : Pattern := char Text.isAsciiDigit

/-- Digits of a set with single underscores between them. -/
def spaced (s : CharSet) : Pattern := char s ++ rounds (opt (lit "_") ++ char s)

/-- Decimal digits with single underscores between them. -/
def spacedDigits : Pattern := spaced Text.isAsciiDigit

/-- Hexadecimal digits. -/
def isHex : CharSet := fun c => (Text.digitValue? c).isSome

/-- An integer in one of the other bases. -/
def otherBase : Pattern :=
  (lit "0x" ++ group 1 (spaced isHex)) ||| (lit "0b" ++ group 2 (spaced (CharSet.anyOf "01"))) |||
    (lit "0o" ++ group 3 (spaced (CharSet.span '0' '7')))

/-- A decimal number: sign, whole part, and the parts that make it a double. -/
def decimalNumber : Pattern :=
  group 1 (opt (char (CharSet.anyOf "+-"))) ++
    group 2 (lit "0" ||| (char (CharSet.span '1' '9') ++ rounds (opt (lit "_") ++ digit))) ++
    opt (lit "." ++ group 3 spacedDigits) ++
    opt (char (CharSet.anyOf "eE") ++ group 4 (opt (char (CharSet.anyOf "+-")) ++ spacedDigits))

/-- Digits without their underscores. -/
def bareDigits (cs : List Char) : List Char := cs.filter (· != '_')

/-- The value of digits of a base. -/
def digitsIn (base : Nat) (cs : List Char) : Nat := (Text.number? base (bareDigits cs)).getD 0

/-- The value of an exponent with its sign. -/
def signedValue (cs : List Char) : Int :=
  match cs with
  | '-' :: ds => -(digitsIn 10 ds : Int)
  | '+' :: ds => digitsIn 10 ds
  | ds => digitsIn 10 ds

/-- The value of a decimal number. -/
def decimalValue (m : Match) : Except ReadFault Datum :=
  let negative := m.groupText 1 == ['-']
  let whole := bareDigits (m.groupText 2)
  match m.group? 3, m.group? 4 with
  | none, none =>
    if whole.length > Text.digitLimit then .error (.longInteger whole.length)
    else
      let n : Int := digitsIn 10 whole
      .ok (.int (if negative then -n else n))
  | part, power =>
    let part := bareDigits (part.getD [])
    .ok (.real (Binary64.ofDigits negative (Text.digitValues (whole ++ part))
      (signedValue (power.getD []) - part.length)))

/-! ## Dates -/

/-- A time of day: its parts are the groups from `n` on. -/
def timeOfDay (n : Nat) : Pattern :=
  group n ((char (CharSet.anyOf "01") ++ digit) ||| (lit "2" ++ char (CharSet.span '0' '3'))) ++
    lit ":" ++ group (n + 1) (char (CharSet.span '0' '5') ++ digit) ++ lit ":" ++
    group (n + 2) (char (CharSet.span '0' '5') ++ digit) ++
    opt (lit "." ++ group (n + 3) (digit ++ opt (digit ++ opt (digit ++ opt (digit ++
      opt (digit ++ opt digit))))) ++ many Text.isAsciiDigit)

/-- A date, perhaps with a time of day and an offset. -/
def dateAndTime : Pattern :=
  group 1 (times 4 Text.isAsciiDigit) ++ lit "-" ++
    group 2 ((lit "0" ++ char (CharSet.span '1' '9')) |||
      (lit "1" ++ char (CharSet.anyOf "012"))) ++
    lit "-" ++
    group 3 ((lit "0" ++ char (CharSet.span '1' '9')) ||| (char (CharSet.anyOf "12") ++ digit) |||
      (lit "3" ++ char (CharSet.anyOf "01"))) ++
    opt (char (CharSet.anyOf "Tt ") ++ timeOfDay 4 ++
      opt (group 8 (char (CharSet.anyOf "Zz")) |||
        (group 9 (char (CharSet.anyOf "+-")) ++
          group 10 ((char (CharSet.anyOf "01") ++ digit) |||
            (lit "2" ++ char (CharSet.span '0' '3'))) ++
          lit ":" ++ group 11 (char (CharSet.span '0' '5') ++ digit))))

/-- The number that a group holds. -/
def groupNumber (m : Match) (n : Nat) : Nat := digitsIn 10 (m.groupText n)

/-- The time in the groups from `n` on. -/
def timeOf (m : Match) (n : Nat) : Time :=
  let part := m.groupText (n + 3)
  ⟨groupNumber m n, groupNumber m (n + 1), groupNumber m (n + 2),
    digitsIn 10 part * 10 ^ (6 - part.length)⟩

/-- The value of a date with what comes with it; nothing if there is no such date. -/
def momentValue? (m : Match) : Option Datum :=
  let date : Date := ⟨groupNumber m 1, groupNumber m 2, groupNumber m 3⟩
  if date.fault?.isSome then none
  else if (m.group? 4).isNone then some (ofDate date)
  else
    let distance := Duration.ofMinutes (groupNumber m 10 * 60 + groupNumber m 11)
    let offset : Option Duration :=
      if (m.group? 8).isSome then some 0
      else (m.group? 9).map fun sign => if sign == ['-'] then -distance else distance
    some (ofMoment date (timeOf m 4) offset)

/-! ## Words -/

/-- The words of TOML and what they stand for. -/
def wordValues : List (String × Datum) := [
  ("true", .bool true), ("false", .bool false)]

/-- The words for special doubles. -/
def specialReals : List (String × Datum) := [
  ("inf", .real (.infinite false)), ("+inf", .real (.infinite false)),
  ("-inf", .real (.infinite true)), ("nan", .real .nan), ("+nan", .real .nan),
  ("-nan", .real .nan)]

/-- One of some words, if the text begins with it. -/
def wordOf? (table : List (String × Datum)) (cs : List Char) : Option (Datum × List Char) :=
  table.findSome? fun (w, d) => (Text.after? w.toList cs).map fun rest => (d, rest)

/-- A date or a number. -/
def numeric (cs : List Char) : ReadResult Datum :=
  match dateAndTime.atStart? cs with
  | some m =>
    match momentValue? m with
    | some d => .ok (d, m.stop.rest)
    | none => .error .malformed
  | none =>
    match (timeOfDay 1).atStart? cs with
    | some m => .ok (ofTime (timeOf m 1), m.stop.rest)
    | none =>
      match otherBase.atStart? cs with
      | some m =>
        let n := match m.group? 1, m.group? 2 with
          | some ds, _ => digitsIn 16 ds
          | none, some ds => digitsIn 2 ds
          | none, none => digitsIn 8 (m.groupText 3)
        .ok (.nat n, m.stop.rest)
      | none =>
        match decimalNumber.atStart? cs with
        | some m => (decimalValue m).map fun d => (d, m.stop.rest)
        | none =>
          match wordOf? specialReals cs with
          | some r => .ok r
          | none => .error .malformed

/-- A value that is no container. -/
def scalar (cs : List Char) : ReadResult Datum :=
  match string? cs with
  | some r => r.map fun (s, rest) => (.text s, rest)
  | none =>
    match wordOf? wordValues cs with
    | some r => .ok r
    | none => numeric cs

end ProjectSurvey.Toml
