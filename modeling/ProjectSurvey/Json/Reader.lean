import ProjectSurvey.Data.Datum
import ProjectSurvey.Data.ReadFault

/-!
# Reading JSON

A reader of JSON texts as values. Beyond the standard it takes `NaN`, `Infinity` and `-Infinity`;
of members with one name the last value stays at the place of the first. **Reading is total**:
the nesting depth is the structural argument, bounded by `nestingLimit`, and every loop inside a
container is bounded by the text it reads. There are three ways to fail: the text is no JSON, it
nests too deeply, or it holds an integer of too many digits.
-/

namespace ProjectSurvey.Json

/-- How deeply containers may nest. -/
def nestingLimit : Nat := 985

/-- White space between the parts of a JSON text. -/
def isSpace (c : Char) : Bool := c == ' ' || c == '\t' || c == '\n' || c == '\r'

/-- The text without leading white space. -/
def skipSpace (cs : List Char) : List Char := cs.dropWhile isSpace

/-! ## Strings -/

/-- Stands for half a surrogate pair, which is no character. -/
def replacement : Char := Char.ofNat 0xfffd

/-- The value of four hexadecimal digits. -/
def hex4? (a b c d : Char) : Option Nat := Text.number? 16 [a, b, c, d]

/-- Adds the character with a code unit to those read (last one first), after the high surrogate
that may be waiting. The new waiting surrogate comes with the result. -/
def pushUnit (acc : List Char) (high : Option Nat) (u : Nat) : List Char × Option Nat :=
  match high with
  | some h =>
    if 0xdc00 ≤ u ∧ u < 0xe000 then
      (Char.ofNat (0x10000 + (h - 0xd800) * 1024 + (u - 0xdc00)) :: acc, none)
    else if 0xd800 ≤ u ∧ u < 0xdc00 then (replacement :: acc, some u)
    else (Char.ofNat u :: replacement :: acc, none)
  | none =>
    if 0xd800 ≤ u ∧ u < 0xdc00 then (acc, some u)
    else if 0xdc00 ≤ u ∧ u < 0xe000 then (replacement :: acc, none)
    else (Char.ofNat u :: acc, none)

/-- The characters read once no surrogate can wait any longer. -/
def flush (acc : List Char) : Option Nat → List Char
  | some _ => replacement :: acc
  | none => acc

/-- The character that a one-letter escape stands for. -/
def escape? : Char → Option Char
  | '"' => some '"'
  | '\\' => some '\\'
  | '/' => some '/'
  | 'b' => some (Char.ofNat 8)
  | 'f' => some (Char.ofNat 12)
  | 'n' => some '\n'
  | 'r' => some '\r'
  | 't' => some '\t'
  | _ => none

/-- The rest of a string after its opening quote: `acc` are the characters read, last one first,
and `high` a high surrogate that waits for its partner. -/
def stringTail (acc : List Char) (high : Option Nat) : List Char → ReadResult String
  | [] => .error .malformed
  | '"' :: cs => .ok (String.ofList (flush acc high).reverse, cs)
  | '\\' :: 'u' :: a :: b :: c :: d :: cs =>
    match hex4? a b c d with
    | some u =>
      let (acc', high') := pushUnit acc high u
      stringTail acc' high' cs
    | none => .error .malformed
  | '\\' :: e :: cs =>
    match escape? e with
    | some c => stringTail (c :: flush acc high) none cs
    | none => .error .malformed
  | c :: cs =>
    if c.toNat < 32 ∨ c = '\\' then .error .malformed
    else stringTail (c :: flush acc high) none cs

/-! ## Numbers and words -/

/-- The leading ASCII digits of a text and what follows them. -/
def digits (cs : List Char) : List Char × List Char :=
  (cs.takeWhile Text.isAsciiDigit, cs.dropWhile Text.isAsciiDigit)

/-- The digits after a point, if a point and a digit follow. -/
def fraction (cs : List Char) : List Char × List Char :=
  match cs with
  | '.' :: rest =>
    match digits rest with
    | ([], _) => ([], cs)
    | (ds, rest) => (ds, rest)
  | _ => ([], cs)

/-- The power of ten after the mark of the exponent, if one follows. -/
def exponent (cs : List Char) : Option Int × List Char :=
  match cs with
  | e :: rest =>
    if e = 'e' ∨ e = 'E' then
      let (negative, body) := match rest with
        | '-' :: r => (true, r)
        | '+' :: r => (false, r)
        | r => (false, r)
      match digits body with
      | ([], _) => (none, cs)
      | (ds, rest) =>
        let n : Int := ((Text.number? 10 ds).getD 0 : Nat)
        (some (if negative then -n else n), rest)
    else (none, cs)
  | [] => (none, cs)

/-- The whole part of a number: a zero, or digits that do not begin with one. -/
def whole? (cs : List Char) : Option (List Char × List Char) :=
  match cs with
  | '0' :: rest => some (['0'], rest)
  | _ =>
    match digits cs with
    | ([], _) => none
    | (ds, rest) => some (ds, rest)

/-- The value of a list of digits. -/
def valueOf (ds : List Char) : Nat := (Text.number? 10 ds).getD 0

/-- A number, its minus already read. -/
def unsigned (negative : Bool) (cs : List Char) : ReadResult Datum :=
  match whole? cs with
  | none => .error .malformed
  | some (ds, rest) =>
    let (part, rest) := fraction rest
    let (power, rest) := exponent rest
    if part.isEmpty ∧ power.isNone then
      if ds.length > Text.digitLimit then .error (.longInteger ds.length)
      else .ok (.int (if negative then -(valueOf ds : Int) else valueOf ds), rest)
    else
      .ok (.real (Binary64.ofDigits negative (Text.digitValues (ds ++ part))
        (power.getD 0 - part.length)), rest)

/-- The words of JSON and what they stand for. -/
def wordValues : List (String × Datum) :=
  [("null", .null), ("true", .bool true), ("false", .bool false),
   ("NaN", .real .nan), ("Infinity", .real (.infinite false)),
   ("-Infinity", .real (.infinite true))]

/-- One of the words, if the text begins with it. -/
def word? (cs : List Char) : Option (Datum × List Char) :=
  wordValues.findSome? fun (w, d) => (Text.after? w.toList cs).map fun rest => (d, rest)

/-- A value that is no container. -/
def scalar (cs : List Char) : ReadResult Datum :=
  match cs with
  | '"' :: rest => (stringTail [] none rest).map fun (s, rest) => (.text s, rest)
  | _ =>
    match word? cs with
    | some r => .ok r
    | none =>
      match cs with
      | '-' :: rest => unsigned true rest
      | _ => unsigned false cs

/-! ## Containers -/

/-- The items of a list after its opening bracket and at least one more item is due; `item` reads
one. The fuel is the text. -/
def items (item : List Char → ReadResult Datum) (acc : List Datum) :
    (fuel cs : List Char) → ReadResult Datum
  | [], _ => .error .malformed
  | _ :: fuel, cs =>
    match item (skipSpace cs) with
    | .error e => .error e
    | .ok (d, rest) =>
      match skipSpace rest with
      | ',' :: rest => items item (d :: acc) fuel rest
      | ']' :: rest => .ok (.list (d :: acc).reverse, rest)
      | _ => .error .malformed

/-- The members of a table when at least one more is due; `item` reads a value. -/
def members (item : List Char → ReadResult Datum) (acc : List (String × Datum)) :
    (fuel cs : List Char) → ReadResult Datum
  | [], _ => .error .malformed
  | _ :: fuel, cs =>
    match skipSpace cs with
    | '"' :: rest =>
      match stringTail [] none rest with
      | .error e => .error e
      | .ok (key, rest) =>
        match skipSpace rest with
        | ':' :: rest =>
          match item (skipSpace rest) with
          | .error e => .error e
          | .ok (d, rest) =>
            match skipSpace rest with
            | ',' :: rest => members item (Assoc.insert key d acc) fuel rest
            | '}' :: rest => .ok (.table (Assoc.insert key d acc), rest)
            | _ => .error .malformed
        | _ => .error .malformed
    | _ => .error .malformed

/-- A list after its opening bracket. -/
def list (item : List Char → ReadResult Datum) (cs : List Char) : ReadResult Datum :=
  match skipSpace cs with
  | ']' :: rest => .ok (.list [], rest)
  | _ => items item [] cs cs

/-- A table after its opening brace. -/
def table (item : List Char → ReadResult Datum) (cs : List Char) : ReadResult Datum :=
  match skipSpace cs with
  | '}' :: rest => .ok (.table [], rest)
  | _ => members item [] cs cs

/-- One value at the front of a text, containers nesting at most `depth` deep. -/
def value : (depth : Nat) → List Char → ReadResult Datum
  | 0, cs =>
    match cs with
    | '[' :: _ => .error .tooDeep
    | '{' :: _ => .error .tooDeep
    | _ => scalar cs
  | depth + 1, cs =>
    match cs with
    | '[' :: rest => list (value depth) rest
    | '{' :: rest => table (value depth) rest
    | _ => scalar cs

/-- The value that a whole text writes. -/
def parse (cs : List Char) : Except ReadFault Datum :=
  match value nestingLimit (skipSpace cs) with
  | .error e => .error e
  | .ok (d, rest) => if (skipSpace rest).isEmpty then .ok d else .error .malformed

end ProjectSurvey.Json
