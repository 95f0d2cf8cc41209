import ProjectSurvey.Data.Assoc
import ProjectSurvey.Text.Lines
import ProjectSurvey.Xml.Token

/-!
# What a document declares

The document type names texts that a document may call for, and says of the attributes of an
element which values they have where a tag gives none. **The first declaration of a name counts.**
The value of an attribute has its references put in and its blanks made spaces; where the attribute
is declared to hold names, only single spaces between them are kept.
-/

namespace ProjectSurvey.Xml

/-- What is declared of an attribute of an element. -/
structure AttributeRule where
  /-- Whether the attribute holds names, so that spaces only separate. -/
  holdsNames : Bool
  /-- The value in a tag that gives none. -/
  standard : Option (List Char)

/-- What a document declares before its first element. -/
structure Prologue where
  /-- Whether the document says that it stands alone. -/
  standalone : Bool
  /-- Whether parts of the document type stand elsewhere. -/
  outside : Bool
  /-- Whether such a part was called for in front of what is being read. -/
  interrupted : Bool
  /-- The general entities; `none` for one whose text stands elsewhere. -/
  entities : Assoc String (Option (List Char))
  /-- The rules for attributes, found by the names of element and attribute. -/
  attributes : Assoc (QualifiedName × QualifiedName) AttributeRule

namespace Prologue

/-- Nothing is declared. -/
def empty : Prologue := ⟨false, false, false, [], []⟩

/-- Whether declarations count: those behind a part that stands elsewhere do so only in a document
that stands alone. -/
def isKnown (p : Prologue) : Bool := !p.interrupted || p.standalone

/-- The document with one more entity; the first declaration of a name counts. -/
def declare (p : Prologue) (name : String) (text : Option (List Char)) : Prologue :=
  { p with entities := Assoc.insertNew name text p.entities }

/-- The document with one more rule; the first rule for an attribute counts. -/
def declareAttribute (p : Prologue) (element name : QualifiedName) (rule : AttributeRule) :
    Prologue :=
  { p with attributes := Assoc.insertNew (element, name) rule p.attributes }

/-- The rules for the attributes of an element. -/
def rulesFor (p : Prologue) (element : QualifiedName) : Assoc QualifiedName AttributeRule :=
  p.attributes.filterMap fun ((e, n), rule) => if e = element then some (n, rule) else none

end Prologue

/-! ## Declared texts -/

/-- The names that a declared text calls for. The fuel is the text. -/
def calledNames (acc : List String) : (fuel cs : List Char) → List String
  | [], _ => acc
  | _ :: fuel, cs =>
    match cs.dropWhile (· != '&') with
    | [] => acc
    | _ :: rest =>
      match reference? rest with
      | some (.entity n, rest) => calledNames (n :: acc) fuel rest
      | some (.char _, rest) => calledNames acc fuel rest
      | none => acc

/-- How long a declared text may become. -/
def growthLimit : Nat := 8388608

/-- The lengths of the declared texts once everything they call for is put in, exact for texts that
do not call for themselves. -/
def Prologue.grownLengths (p : Prologue) : Assoc String Nat :=
  let texts := p.entities.filterMap fun (n, t) =>
    t.map fun cs => (n, cs.length, calledNames [] cs cs)
  let start : Assoc String Nat := texts.map fun (n, len, _) => (n, len)
  texts.foldl (fun sizes _ => texts.map fun (n, len, calls) =>
    (n, min (growthLimit + 1) (len + (calls.map fun c => (Assoc.get? c sizes).getD 0).sum))) start

/-- The declarations without the texts that grow too long, which nothing may call for. -/
def Prologue.bounded (p : Prologue) : Prologue :=
  let sizes := p.grownLengths
  { p with entities := p.entities.map fun (n, text) =>
      (n, if growthLimit < (Assoc.get? n sizes).getD 0 then none else text) }

/-! ## Values of attributes -/

/-- The value of an attribute, `expand` giving the value of a declared text. The fuel is the
text. -/
def valueWith (expand : String → Option (List Char)) (acc : List Char) :
    (fuel cs : List Char) → Option (List Char)
  | [], _ => some acc.reverse
  | _ :: fuel, cs =>
    match cs with
    | [] => some acc.reverse
    | '<' :: _ => none
    | '&' :: rest => do
      match ← reference? rest with
      | (.char c, rest) => valueWith expand (c :: acc) fuel rest
      | (.entity n, rest) => valueWith expand ((← expand n).reverse ++ acc) fuel rest
    | c :: rest => valueWith expand ((if isXmlSpace c then ' ' else c) :: acc) fuel rest

/-- The value of an attribute outside the texts in `active`. -/
def value? (p : Prologue) : (depth : Nat) → (active : List String) → List Char → Option (List Char)
  | 0, _, _ => none
  | depth + 1, active, cs =>
    let expand (n : String) : Option (List Char) :=
      match Assoc.get? n p.entities with
      | some (some text) => if active.contains n then none else value? p depth (n :: active) text
      | some none => none
      | none => if p.outside && !p.standalone then some [] else none
    valueWith expand [] cs cs

/-- A value with single spaces between its names and none around them. -/
def mergeSpaces (cs : List Char) : List Char :=
  (cs.foldr mergeInto []).dropWhile (· == ' ')
where
  /-- A character in front of a value in which spaces only separate. -/
  mergeInto (c : Char) (behind : List Char) : List Char :=
    if c == ' ' && (behind.isEmpty || behind.head? == some ' ') then behind else c :: behind

/-- The value of an attribute from its text in a tag or in a rule, where a line end is one blank
however it is written; those of declared texts were made one when they were declared. -/
def Prologue.attributeValue? (p : Prologue) (holdsNames : Bool) (raw : List Char) :
    Option (List Char) :=
  (value? p (p.entities.length + 1) [] (Text.unifyLineEnds raw)).map fun cs =>
    if holdsNames then mergeSpaces cs else cs

end ProjectSurvey.Xml
