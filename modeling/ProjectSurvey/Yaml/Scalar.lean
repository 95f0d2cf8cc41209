import ProjectSurvey.Text.Chars
import ProjectSurvey.Yaml.Fault
import ProjectSurvey.Yaml.Place

/-!
# Scalars of YAML

The four ways of writing a scalar: plain, in single quotes, in double quotes, and as a block of
lines, literal or folded. **A single line break between words is a blank**; further breaks are
kept. Each reader starts at the scalar and answers its text and the place behind it.
-/

namespace ProjectSurvey.Yaml

/-- The characters that a folded break stands for: the break itself if it is no line feed, a blank
if no further break follows, and the further ones. -/
def foldedBreak (first : Char) (further : List Char) : List Char :=
  (if first ≠ '\n' then [first] else if further.isEmpty then [' '] else []) ++ further

/-! ## Plain scalars -/

/-- Whether a plain scalar ends in front of `c` followed by `after`. -/
def endsPlain (inFlow : Bool) (c : Char) (after : Option Char) : Bool :=
  let endsFlow (a : Char) : Bool := ",[]\x7b\x7d".toList.contains a
  gapsOrEnds (some c) ||
    (c == ':' && (gapsOrEnds after || (inFlow && after.any endsFlow))) ||
    (inFlow && ",?[]\x7b\x7d".toList.contains c)

/-- The characters up to the next gap or end of a plain scalar; `acc` holds those passed, last one
first. -/
def plainWord (inFlow : Bool) (acc : List Char) : List Char → List Char
  | [] => acc.reverse
  | c :: cs => if endsPlain inFlow c cs.head? then acc.reverse else plainWord inFlow (c :: acc) cs

/-- The further breaks after a line break inside a plain scalar, blanks left out; nothing if a
marker follows one. The fuel is the text. -/
def plainBreaks (acc : List Char) : (fuel : List Char) → Place → Option (List Char × Place)
  | [], p => some (acc.reverse, p)
  | _ :: fuel, p =>
    if p.isAt ' ' then plainBreaks acc fuel p.next
    else
      match p.lineBreak? with
      | none => some (acc.reverse, p)
      | some (b, p) => if p.isDocumentMarker then none else plainBreaks (b :: acc) fuel p

/-- What stands between two words of a plain scalar, whether it holds a line break, and the place
behind it. Nothing between them means that the scalar ends. -/
def plainGap (p : Place) : List Char × Bool × Place :=
  let (blanks, p) := p.takeWhile (· == ' ')
  match p.lineBreak? with
  | none => (blanks, false, p)
  | some (b, p) =>
    if p.isDocumentMarker then ([], true, p)
    else
      match plainBreaks [] p.rest p with
      | none => ([], true, p)
      | some (further, p) => (foldedBreak b further, true, p)

/-- A plain scalar whose further lines are indented by `indent` at least: its text, whether it is
followed by a line break, and the place behind it. The fuel is the text. -/
def plain (inFlow : Bool) (indent : Int) (acc gap : List Char) (broken : Bool) :
    (fuel : List Char) → Place → String × Bool × Place
  | [], p => (String.ofList acc.reverse, broken, p)
  | _ :: fuel, p =>
    let word := if p.isAt '#' then [] else plainWord inFlow [] p.rest
    if word.isEmpty then (String.ofList acc.reverse, broken, p)
    else
      let acc := word.reverse ++ gap.reverse ++ acc
      let (gap, broken, p) := plainGap (p.skip word.length)
      if gap.isEmpty || p.isAt '#' || (!inFlow && (p.column : Int) < indent) then
        (String.ofList acc.reverse, broken, p)
      else plain inFlow indent acc gap broken fuel p

/-! ## Quoted scalars -/

/-- What the letter of an escape stands for. -/
def escape? (c : Char) : Option Char :=
  match c with
  | '0' => some (Char.ofNat 0)
  | 'a' => some (Char.ofNat 7)
  | 'b' => some (Char.ofNat 8)
  | 't' => some '\t'
  | '\t' => some '\t'
  | 'n' => some '\n'
  | 'v' => some (Char.ofNat 11)
  | 'f' => some (Char.ofNat 12)
  | 'r' => some '\r'
  | 'e' => some (Char.ofNat 27)
  | ' ' => some ' '
  | '"' => some '"'
  | '\\' => some '\\'
  | '/' => some '/'
  | 'N' => some (Char.ofNat 0x85)
  | '_' => some (Char.ofNat 0xa0)
  | 'L' => some (Char.ofNat 0x2028)
  | 'P' => some (Char.ofNat 0x2029)
  | _ => none

/-- How many hexadecimal digits follow the letter of an escape. -/
def escapeDigits? : Char → Option Nat
  | 'x' => some 2
  | 'u' => some 4
  | 'U' => some 8
  | _ => none

/-- The character of a number; half a surrogate pair is replaced. -/
def charOf (n : Nat) : Except Fault Char :=
  if n < 0x110000 then .ok (if 0xd800 ≤ n ∧ n < 0xe000 then Char.ofNat 0xfffd else Char.ofNat n)
  else .error (.noCharacter n)

/-- The breaks inside a quoted scalar, blanks left out; a marker may not follow one. The fuel is the
text. -/
def quotedBreaks (acc : List Char) : (fuel : List Char) → Place → Except Fault (List Char × Place)
  | [], p => .ok (acc.reverse, p)
  | _ :: fuel, p =>
    if p.isDocumentMarker then .error .malformed
    else
      let p := p.skipWhile fun c => c == ' ' || c == '\t'
      match p.lineBreak? with
      | some (b, p) => quotedBreaks (b :: acc) fuel p
      | none => .ok (acc.reverse, p)

/-- The characters of a hexadecimal escape behind its letter. -/
def hexEscape (digits : Nat) (p : Place) : Except Fault (List Char × Place) :=
  let ds := p.rest.take digits
  match if ds.length = digits then Text.number? 16 ds else none with
  | none => .error .malformed
  | some n => do
    let c ← charOf n
    .ok ([c], p.skip digits)

/-- The characters of an escape behind its backslash. -/
def escaped (p : Place) : Except Fault (List Char × Place) :=
  match p.peek with
  | none => .error .malformed
  | some c =>
    match escape? c, escapeDigits? c, p.lineBreak? with
    | some x, _, _ => .ok ([x], p.next)
    | none, some n, _ => hexEscape n p.next
    | none, none, some (_, p) => quotedBreaks [] p.rest p
    | none, none, none => .error .malformed

/-- A quoted scalar behind its opening quote. The fuel is the text. -/
def quoted (double : Bool) (acc : List Char) :
    (fuel : List Char) → Place → Except Fault (String × Place)
  | [], _ => .error .malformed
  | _ :: fuel, p =>
    match p.rest with
    | [] => .error .malformed
    | c :: rest =>
      if c = '\'' ∧ double = false then
        if rest.head? = some '\'' then quoted double ('\'' :: acc) fuel (p.skip 2)
        else .ok (String.ofList acc.reverse, p.next)
      else if c = '"' ∧ double = true then .ok (String.ofList acc.reverse, p.next)
      else if c = '\\' ∧ double = true then do
        let (cs, p) ← escaped p.next
        quoted double (cs.reverse ++ acc) fuel p
      else if gapsOrEnds (some c) then
        let (blanks, p) := p.takeWhile fun c => c == ' ' || c == '\t'
        match p.peek, p.lineBreak? with
        | none, _ => .error .malformed
        | some _, none => quoted double (blanks.reverse ++ acc) fuel p
        | some _, some (b, p) => do
          let (further, p) ← quotedBreaks [] p.rest p
          quoted double ((foldedBreak b further).reverse ++ acc) fuel p
      else quoted double (c :: acc) fuel p.next

/-! ## Block scalars -/

/-- What becomes of the breaks at the end of a block. -/
inductive Chomping where
  /-- One is kept. -/
  | clip
  /-- None is kept. -/
  | strip
  /-- All are kept. -/
  | keep
  deriving DecidableEq

/-- The sign of a chomping. -/
def chomping? : Option Char → Option Chomping
  | some '+' => some .keep
  | some '-' => some .strip
  | _ => none

/-- The digit of an indentation. -/
def increment? (o : Option Char) : Option Nat := o.bind fun c =>
  if Text.isAsciiDigit c then some (c.toNat - 48) else none

/-- The indicators behind the sign of a block: chomping and indentation in either order. -/
def blockIndicators (p : Place) : Except Fault ((Chomping × Option Nat) × Place) :=
  let (c, n, p) :=
    match chomping? p.peek, increment? p.peek with
    | some c, _ =>
      match increment? p.next.peek with
      | some n => (c, some n, p.skip 2)
      | none => (c, none, p.next)
    | none, some n =>
      match chomping? p.next.peek with
      | some c => (c, some n, p.skip 2)
      | none => (.clip, some n, p.next)
    | none, none => (.clip, none, p)
  if n = some 0 ∨ !spacesOrEnds p.peek then .error .malformed else .ok ((c, n), p)

/-- Reads over the rest of a line, on which only a comment may stand. -/
def ignoredLine (p : Place) : Except Fault Place :=
  let p := p.skipWhile (· == ' ')
  let p := if p.isAt '#' then p.skipWhile (fun c => !isBreak c) else p
  if breaksOrEnds p.peek then
    .ok (match p.lineBreak? with
      | some (_, p) => p
      | none => p)
  else .error .malformed

/-- The breaks in front of a block whose indentation is not given, and the greatest column that the
blanks among them reach. The fuel is the text. -/
def leadingBreaks (acc : List Char) (deepest : Nat) :
    (fuel : List Char) → Place → List Char × Nat × Place
  | [], p => (acc.reverse, deepest, p)
  | _ :: fuel, p =>
    if p.isAt ' ' then leadingBreaks acc (max deepest p.next.column) fuel p.next
    else
      match p.lineBreak? with
      | some (b, p) => leadingBreaks (b :: acc) deepest fuel p
      | none => (acc.reverse, deepest, p)

/-- The place behind the blanks in front of a column. -/
def skipIndent (indent : Nat) : (fuel : Nat) → Place → Place
  | 0, p => p
  | fuel + 1, p => if p.column < indent ∧ p.isAt ' ' then skipIndent indent fuel p.next else p

/-- The breaks between lines of a block, and the place behind the indentation. The fuel is the
text. -/
def blockBreaks (indent : Nat) (acc : List Char) : (fuel : List Char) → Place → List Char × Place
  | [], p => (acc.reverse, p)
  | _ :: fuel, p =>
    let p := skipIndent indent indent p
    match p.lineBreak? with
    | some (b, p) => blockBreaks indent (b :: acc) fuel p
    | none => (acc.reverse, p)

/-- The lines of a block: its characters, last one first, the break of its last line, and the
breaks behind that. `pending` are the breaks in front of the line at `p`. The fuel is the text. -/
def blockLines (folded : Bool) (indent : Nat) (acc last pending : List Char) :
    (fuel : List Char) → Place → List Char × List Char × List Char × Place
  | [], p => (acc, last, pending, p)
  | _ :: fuel, p =>
    if p.column ≠ indent ∨ p.peek.isNone then (acc, last, pending, p)
    else
      let startsBlank := p.isIn fun c => c == ' ' || c == '\t'
      let (line, p) := p.takeWhile fun c => !isBreak c
      let acc := line.reverse ++ pending.reverse ++ acc
      let (last, p) := match p.lineBreak? with
        | some (b, p) => ([b], p)
        | none => ([], p)
      let (breaks, p) := blockBreaks indent [] p.rest p
      if p.column = indent ∧ p.peek.isSome then
        let joins := folded && last == ['\n'] && !startsBlank &&
          !(p.isIn fun c => c == ' ' || c == '\t')
        let acc := if joins then (if breaks.isEmpty then ' ' :: acc else acc) else last ++ acc
        blockLines folded indent acc last breaks fuel p
      else (acc, last, breaks, p)

/-- A block scalar behind its sign, inside a container indented by `outer`. -/
def block (folded : Bool) (outer : Int) (p : Place) : Except Fault (String × Place) := do
  let ((chomping, increment), p) ← blockIndicators p
  let p ← ignoredLine p
  let least := (max 1 (outer + 1)).toNat
  let (indent, breaks, p) :=
    match increment with
    | some n =>
      let indent := least + n - 1
      let (breaks, p) := blockBreaks indent [] p.rest p
      (indent, breaks, p)
    | none =>
      let (breaks, deepest, p) := leadingBreaks [] 0 p.rest p
      (max least deepest, breaks, p)
  let (acc, last, breaks, p) := blockLines folded indent [] [] breaks p.rest p
  let tail := match chomping with
    | .clip => last
    | .strip => []
    | .keep => last ++ breaks
  .ok (String.ofList (acc.reverse ++ tail), p)

end ProjectSurvey.Yaml
