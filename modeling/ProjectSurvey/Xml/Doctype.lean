import ProjectSurvey.Xml.ContentModel
import ProjectSurvey.Xml.Prologue

/-!
# What stands before the first element

The declaration of the document, and the document type with its declarations. **Only those of
general entities and of attributes are kept**; those of elements and notations are read over. A
reference to an outside part of the document type leaves later declarations unknown: their texts and
values are not looked into, unless the document says that it stands alone.
-/

namespace ProjectSurvey.Xml

/-! ## The declaration of the document -/

/-- One item of the declaration: a name and a value of plain characters. -/
def item? (cs : List Char) : Option ((String × String) × List Char) := do
  let (n, rest) ← name? (← space? cs)
  match skipSpace rest with
  | '=' :: rest =>
    let (value, rest) ← quoted? (skipSpace rest)
    if value.all fun c => Text.isAsciiAlnum c || c == '.' || c == '-' || c == '_' then
      some ((n, String.ofList value), rest)
    else none
  | _ => none

/-- The items of the declaration. The fuel is the text. -/
def items? (acc : List (String × String)) : (fuel cs : List Char) → Option (List (String × String))
  | fuel, cs =>
    if (skipSpace cs).isEmpty then some acc.reverse
    else
      match fuel with
      | [] => none
      | _ :: fuel => do
        let (i, rest) ← item? cs
        items? (i :: acc) fuel rest

/-- Whether a value can name an encoding. -/
def isEncodingName (value : String) : Bool :=
  match value.toList with
  | c :: _ => Text.isAsciiLetter c
  | [] => false

/-- Whether the document stands alone, from the items behind the version. -/
def standalone? : List (String × String) → Option Bool
  | [] => some false
  | [("encoding", e)] => if isEncodingName e then some false else none
  | [("standalone", "yes")] => some true
  | [("standalone", "no")] => some false
  | [("encoding", e), ("standalone", "yes")] => if isEncodingName e then some true else none
  | [("encoding", e), ("standalone", "no")] => if isEncodingName e then some false else none
  | _ => none

/-- Reads over the declaration of the document, if there is one. -/
def declaration? (cs : List Char) : Option (Bool × List Char) :=
  match Text.after? "<?xml".toList cs with
  | some rest =>
    if (space? rest).isNone then some (false, cs)
    else do
      let (body, rest) ← Text.cut? ['?', '>'] rest
      match ← items? [] body body with
      | ("version", _) :: more => (standalone? more).map fun s => (s, rest)
      | _ => none
  | none => some (false, cs)

/-! ## Declarations of the document type -/

/-- Whether the ampersands of an entity's text are references. -/
def hasGoodReferences : (fuel cs : List Char) → Bool
  | [], _ => true
  | _ :: fuel, cs =>
    match cs.dropWhile (· != '&') with
    | [] => true
    | _ :: rest =>
      match reference? rest with
      | some (_, rest) => hasGoodReferences fuel rest
      | none => false

/-- The text of an entity with its numbered characters put in and its line ends made one. The fuel
is the text. -/
def entityText? (acc : List Char) : (fuel cs : List Char) → Option (List Char)
  | [], _ => some acc.reverse
  | _ :: fuel, cs =>
    match cs with
    | [] => some acc.reverse
    | '%' :: _ => none
    | '&' :: '#' :: rest => do
      match ← reference? ('#' :: rest) with
      | (.char c, rest) => entityText? (c :: acc) fuel rest
      | _ => none
    | '\r' :: '\n' :: rest => entityText? ('\n' :: acc) fuel rest
    | '\r' :: rest => entityText? ('\n' :: acc) fuel rest
    | c :: rest => entityText? (c :: acc) fuel rest

/-- The characters of a public identifier. -/
def isPublicChar (c : Char) : Bool :=
  Text.isAsciiAlnum c || " \n\r-'()+,./:=?;!*#@$_%".toList.contains c

/-- Where an outside part stands: a system identifier, or a public one and a system one. -/
def outsidePlace? (cs : List Char) : Option (List Char) :=
  match Text.after? "SYSTEM".toList cs with
  | some rest => do
    let (_, rest) ← quoted? (← space? rest)
    some rest
  | none => do
    let (id, rest) ← quoted? (← space? (← Text.after? "PUBLIC".toList cs))
    if id.all isPublicChar then
      let (_, rest) ← quoted? (← space? rest)
      some rest
    else none

/-- The notation of an entity that is no text, if one is given. -/
def skipNotation? (cs : List Char) : Option (List Char) :=
  match space? cs with
  | some rest =>
    match Text.after? "NDATA".toList rest with
    | some rest => do
      let (_, rest) ← name? (← space? rest)
      some rest
    | none => some rest
  | none => some cs

/-- The text of an entity, or the place where it stands, up to the end of its declaration. The text
of an entity that is not `known` is not looked into. -/
def entityBody? (known general : Bool) (cs : List Char) :
    Option ((Option (List Char)) × List Char) :=
  match cs with
  | c :: _ =>
    if c = '"' ∨ c = '\'' then do
      let (raw, rest) ← quoted? cs
      let rest ← closing? rest
      if !known then some (none, rest)
      else if hasGoodReferences raw raw then
        (entityText? [] raw raw).map fun text => (some text, rest)
      else none
    else do
      let rest ← outsidePlace? cs
      let rest ← if general then skipNotation? rest else some rest
      (closing? rest).map fun rest => (none, rest)
  | [] => none

/-- The declaration of an entity behind its keyword. -/
def entity? (p : Prologue) (cs : List Char) : Option (Prologue × List Char) := do
  match ← space? cs with
  | '%' :: rest =>
    let (_, rest) ← name? (← space? rest)
    let (_, rest) ← entityBody? p.isKnown false (← space? rest)
    some (p, rest)
  | rest =>
    let (n, rest) ← name? rest
    let (text, rest) ← entityBody? p.isKnown true (← space? rest)
    some (if p.isKnown then p.declare n text else p, rest)

/-- Reads over the declaration of a notation behind its keyword. -/
def notationDeclaration? (cs : List Char) : Option (List Char) := do
  let (_, rest) ← name? (← space? cs)
  let rest ← space? rest
  match outsidePlace? rest with
  | some rest => closing? rest
  | none => do
    let (id, rest) ← quoted? (← space? (← Text.after? "PUBLIC".toList rest))
    if id.all isPublicChar then closing? rest else none

/-! ## Declarations of attributes -/

/-- The kinds of attributes that hold names, where a keyword says so. -/
def nameKinds : List String :=
  ["ID", "IDREF", "IDREFS", "ENTITY", "ENTITIES", "NMTOKEN", "NMTOKENS"]

/-- Reads over the values that an attribute is limited to, `one` reading over one of them. The fuel
is the text. -/
def choices? (one : List Char → Option (List Char)) : (fuel cs : List Char) → Option (List Char)
  | [], _ => none
  | _ :: fuel, cs => do
    match skipSpace (← one (skipSpace cs)) with
    | '|' :: rest => choices? one fuel rest
    | ')' :: rest => some rest
    | _ => none

/-- The kind of an attribute: whether it holds names. -/
def attributeKind? (cs : List Char) : Option (Bool × List Char) :=
  match cs with
  | '(' :: rest => (choices? nameToken? rest rest).map fun rest => (true, rest)
  | _ => do
    let (kind, rest) ← name? cs
    if kind = "CDATA" then some (false, rest)
    else if nameKinds.contains kind then some (true, rest)
    else if kind = "NOTATION" then
      match ← space? rest with
      | '(' :: rest =>
        (choices? (fun cs => (name? cs).map Prod.snd) rest rest).map fun rest => (true, rest)
      | _ => none
    else none

/-- The text that a rule gives as the value of an attribute, if it gives one. -/
def standardText? (cs : List Char) : Option (Option (List Char) × List Char) :=
  match cs with
  | '#' :: rest => do
    let (keyword, rest) ← name? rest
    if keyword = "IMPLIED" ∨ keyword = "REQUIRED" then some (none, rest)
    else if keyword = "FIXED" then
      (quoted? (← space? rest)).map fun (raw, rest) => (some raw, rest)
    else none
  | _ => (quoted? cs).map fun (raw, rest) => (some raw, rest)

/-- The rule for one attribute of an element. -/
def attributeRule? (p : Prologue) (element : QualifiedName) (cs : List Char) :
    Option (Prologue × List Char) := do
  let (n, rest) ← declaredName? cs
  let (holdsNames, rest) ← attributeKind? (← space? rest)
  let (raw, rest) ← standardText? (← space? rest)
  if p.isKnown then
    let standard ← match raw with
      | some raw =>
        ((if raw.contains '&' then p.bounded else p).attributeValue? holdsNames raw).map some
      | none => some none
    some (p.declareAttribute element n ⟨holdsNames, standard⟩, rest)
  else some (p, rest)

/-- The rules for the attributes of an element up to the end of the declaration. The fuel is the
text. -/
def attributeRules? (p : Prologue) (element : QualifiedName) :
    (fuel cs : List Char) → Option (Prologue × List Char)
  | [], _ => none
  | _ :: fuel, cs =>
    match closing? cs with
    | some rest => some (p, rest)
    | none => do
      let (p, rest) ← attributeRule? p element (← space? cs)
      attributeRules? p element fuel rest

/-- The declaration of the attributes of an element behind its keyword. -/
def attributeList? (p : Prologue) (cs : List Char) : Option (Prologue × List Char) := do
  let (element, rest) ← declaredName? (← space? cs)
  attributeRules? p element rest rest

/-! ## The document type -/

/-- One declaration of the document type that begins with a bracket. -/
def markup? (p : Prologue) (cs : List Char) : Option (Prologue × List Char) :=
  let behind (opening : String) : Option (List Char) := Text.after? opening.toList cs
  if let some rest := behind "<!ENTITY" then entity? p rest
  else if let some rest := behind "<!ATTLIST" then attributeList? p rest
  else if let some rest := behind "<!ELEMENT" then (elementDeclaration? rest).map fun r => (p, r)
  else if let some rest := behind "<!NOTATION" then (notationDeclaration? rest).map fun r => (p, r)
  else if let some rest := behind "<!--" then (comment? rest).map fun r => (p, r)
  else do
    let ((target, _), rest) ← instruction? (← behind "<?")
    if isReservedTarget target then none else some (p, rest)

/-- The declarations up to the bracket that closes them. The fuel is the text. -/
def declarations? (p : Prologue) : (fuel cs : List Char) → Option (Prologue × List Char)
  | [], _ => none
  | _ :: fuel, cs =>
    match skipSpace cs with
    | ']' :: rest => some (p, rest)
    | '%' :: rest => do
      match ← name? rest with
      | (_, ';' :: rest) => declarations? { p with outside := true, interrupted := true } fuel rest
      | _ => none
    | cs => do
      let (p, rest) ← markup? p cs
      declarations? p fuel rest

/-- The document type behind its keyword. -/
def doctype? (p : Prologue) (cs : List Char) : Option (Prologue × List Char) := do
  let (_, rest) ← declaredName? (← space? cs)
  let hasPlace := match space? rest with
    | some (c :: _) => c != '[' && c != '>'
    | _ => false
  let rest' ← if hasPlace then outsidePlace? (skipSpace rest) else some rest
  let p := if hasPlace then { p with outside := true } else p
  match skipSpace rest' with
  | '>' :: rest => some (p, rest)
  | '[' :: rest => do
    let (p, rest) ← declarations? p rest rest
    (closing? rest).map fun rest => (p, rest)
  | _ => none

end ProjectSurvey.Xml
