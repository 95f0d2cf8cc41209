import ProjectSurvey.Text.Lower
import ProjectSurvey.Text.Chars
import ProjectSurvey.Xml.Names

/-!
# Markup of XML

The smallest parts of an XML text: names, references, tags, comments and processing instructions.
Each reader takes one part from the front of a text and answers what follows it. **A part that
breaks a rule gives nothing**: XML has one kind of fault, a text that is not well formed.
-/

namespace ProjectSurvey.Xml

/-- The text without leading white space. -/
def skipSpace (cs : List Char) : List Char := cs.dropWhile isXmlSpace

/-- The text behind white space, of which there must be some. -/
def space? (cs : List Char) : Option (List Char) :=
  match cs with
  | c :: rest => if isXmlSpace c then some (skipSpace rest) else none
  | [] => none

/-! ## Names and references -/

/-- A name without a colon. -/
def name? (cs : List Char) : Option (String × List Char) :=
  match cs with
  | c :: rest =>
    if isNameStart c then
      some (String.ofList (c :: rest.takeWhile isNameChar), rest.dropWhile isNameChar)
    else none
  | [] => none

/-- A qualified name: a space abbreviation, empty if there is none, and a name. -/
structure QualifiedName where
  /-- The abbreviation. -/
  abbreviation : String
  /-- The name. -/
  part : String
  deriving DecidableEq

/-- A qualified name. -/
def qualifiedName? (cs : List Char) : Option (QualifiedName × List Char) := do
  let (first, rest) ← name? cs
  match rest with
  | ':' :: rest =>
    let (second, rest) ← name? rest
    if rest.head? = some ':' then none else some (⟨first, second⟩, rest)
  | _ => some (⟨"", first⟩, rest)

/-- A name in a declaration of the document type, where the second part of a qualified name may
begin with any character of a name. -/
def declaredName? (cs : List Char) : Option (QualifiedName × List Char) := do
  let (first, rest) ← name? cs
  match rest with
  | ':' :: rest =>
    let (part, rest) := (rest.takeWhile isNameChar, rest.dropWhile isNameChar)
    if part.isEmpty ∨ rest.head? = some ':' then none
    else some (⟨first, String.ofList part⟩, rest)
  | _ => some (⟨"", first⟩, rest)

/-- One of the values that an attribute may be limited to: characters of names and colons. -/
def nameToken? (cs : List Char) : Option (List Char) :=
  let isPart (c : Char) : Bool := isNameChar c || c == ':'
  if (cs.takeWhile isPart).isEmpty then none else some (cs.dropWhile isPart)

/-- What an ampersand introduces. -/
inductive Reference where
  /-- A character. -/
  | char (c : Char)
  /-- A declared text. -/
  | entity (name : String)

/-- The five names that need no declaration. -/
def predefined : List (String × Char) :=
  [("amp", '&'), ("lt", '<'), ("gt", '>'), ("apos", '\''), ("quot", '"')]

/-- A character given by the digits of its number. -/
def numbered? (base : Nat) (digits : List Char) : Option Char := do
  let n ← Text.number? base digits
  if n.isValidChar ∧ isXmlChar (Char.ofNat n) then some (Char.ofNat n) else none

/-- A reference behind its ampersand. -/
def reference? (cs : List Char) : Option (Reference × List Char) :=
  match cs with
  | '#' :: rest =>
    match Text.cut? [';'] rest with
    | some ('x' :: digits, rest) => (numbered? 16 digits).map fun c => (.char c, rest)
    | some (digits, rest) => (numbered? 10 digits).map fun c => (.char c, rest)
    | none => none
  | _ => do
    let (n, rest) ← name? cs
    match rest with
    | ';' :: rest =>
      match predefined.find? fun p => p.1 = n with
      | some (_, c) => some (.char c, rest)
      | none => some (.entity n, rest)
    | _ => none

/-! ## Comments, instructions and quoted texts -/

/-- A comment behind its opening. -/
def comment? (cs : List Char) : Option (List Char) := do
  let (inside, rest) ← Text.cut? ['-', '-'] cs
  match rest with
  | '>' :: rest => if inside.all isXmlChar then some rest else none
  | _ => none

/-- Whether a name is the reserved one in some case. -/
def isReservedTarget (n : String) : Bool := Text.lowered n == "xml"

/-- A processing instruction behind its opening: its target and its body. -/
def instruction? (cs : List Char) : Option ((String × List Char) × List Char) := do
  let (target, rest) ← name? cs
  let (body, rest) ← Text.cut? ['?', '>'] rest
  if body.all isXmlChar ∧ (body.isEmpty ∨ (space? body).isSome) then some ((target, body), rest)
  else none

/-- What follows the bracket that closes a declaration. -/
def closing? (cs : List Char) : Option (List Char) :=
  match skipSpace cs with
  | '>' :: rest => some rest
  | _ => none

/-- A text in quotes of either kind. -/
def quoted? (cs : List Char) : Option ((List Char) × List Char) :=
  match cs with
  | q :: rest =>
    if q = '"' ∨ q = '\'' then do
      let (inside, rest) ← Text.cut? [q] rest
      if inside.all isXmlChar then some (inside, rest) else none
    else none
  | [] => none

/-! ## Tags -/

/-- A start tag: its name, its attributes with their raw values, and whether the element ends with
it. -/
structure Tag where
  /-- The name. -/
  name : QualifiedName
  /-- Names and raw values of the attributes. -/
  attributes : List (QualifiedName × List Char)
  /-- Whether the tag is its own end. -/
  closed : Bool

/-- The end of a start tag. -/
def tagEnd? : List Char → Option (Bool × List Char)
  | '>' :: rest => some (false, rest)
  | '/' :: '>' :: rest => some (true, rest)
  | _ => none

/-- An attribute with its raw value. -/
def attribute? (cs : List Char) : Option ((QualifiedName × List Char) × List Char) := do
  let (n, rest) ← qualifiedName? cs
  match skipSpace rest with
  | '=' :: rest =>
    let (value, rest) ← quoted? (skipSpace rest)
    if value.contains '<' then none else some ((n, value), rest)
  | _ => none

/-- The attributes and the end of a start tag. The fuel is the text. -/
def attributes? (acc : List (QualifiedName × List Char)) :
    (fuel cs : List Char) → Option ((List (QualifiedName × List Char) × Bool) × List Char)
  | [], _ => none
  | _ :: fuel, cs =>
    match tagEnd? (skipSpace cs) with
    | some (closed, rest) => some ((acc.reverse, closed), rest)
    | none => do
      let (a, rest) ← attribute? (← space? cs)
      attributes? (a :: acc) fuel rest

/-- A start tag behind its opening bracket. -/
def tag? (cs : List Char) : Option (Tag × List Char) := do
  let (n, rest) ← qualifiedName? cs
  let ((attributes, closed), rest) ← attributes? [] rest rest
  some (⟨n, attributes, closed⟩, rest)

/-- An end tag behind its opening: its name. -/
def endTag? (cs : List Char) : Option (QualifiedName × List Char) := do
  let (n, rest) ← qualifiedName? cs
  match skipSpace rest with
  | '>' :: rest => some (n, rest)
  | _ => none

end ProjectSurvey.Xml
