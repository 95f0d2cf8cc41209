import ProjectSurvey.Xml.Basic
import ProjectSurvey.Xml.Doctype

/-!
# Reading XML

A reader of XML documents with namespaces. Inside an element the open elements are kept on a stack,
so that **deep documents cost no recursion**; a declared text is read as content of its own, with
the texts that are being read excluded, so the number of declared texts bounds how deeply they can
call for each other. A text that would grow beyond `growthLimit` is refused.
-/

namespace ProjectSurvey.Xml

/-- The abbreviations in force and the namespaces they stand for; the empty one is the namespace
of elements without abbreviation. -/
abbrev Scope := Assoc String String

/-- The namespace of the abbreviation `xml`. -/
def xmlSpace : String := "http://www.w3.org/XML/1998/namespace"

/-- The namespace that no abbreviation may stand for. -/
def xmlnsSpace : String := "http://www.w3.org/2000/xmlns/"

/-- What holds at the start of a document. -/
def Scope.initial : Scope := [("xml", xmlSpace)]

/-! ## Tags -/

/-- The abbreviation that an attribute declares; the empty one for the namespace of elements
without abbreviation. -/
def declared? (n : QualifiedName) : Option String :=
  if n = ⟨"", "xmlns"⟩ then some ""
  else if n.abbreviation = "xmlns" then some n.part
  else none

/-- Whether an abbreviation may stand for a namespace. -/
def mayStandFor (abbreviation space : String) : Bool :=
  (abbreviation == "" || space != "") && !(space.toList.contains '}') &&
    abbreviation != "xmlns" && (abbreviation == "xml") == (space == xmlSpace) &&
    space != xmlnsSpace

/-- The scope inside a tag with the given declarations. -/
def Scope.extend? (scope : Scope) : List (String × String) → Option Scope
  | [] => some scope
  | (a, s) :: more =>
    if mayStandFor a s then Scope.extend? (Assoc.insert a s scope) more else none

/-- The name of an element. -/
def Scope.elementName? (scope : Scope) (n : QualifiedName) : Option Name :=
  match Assoc.get? n.abbreviation scope with
  | some s => some ⟨s, n.part⟩
  | none => if n.abbreviation = "" then some ⟨"", n.part⟩ else none

/-- The name of an attribute; without an abbreviation it is in no namespace. -/
def Scope.attributeName? (scope : Scope) (n : QualifiedName) : Option Name :=
  if n.abbreviation = "" then some ⟨"", n.part⟩ else scope.elementName? n

/-- The attributes of a tag with their values, in front of those that it leaves to the rules. -/
def Tag.values? (p : Prologue) (t : Tag) : Option (List (QualifiedName × List Char)) := do
  let rules := p.rulesFor t.name
  let given ← t.attributes.mapM fun (n, raw) =>
    let holdsNames := ((Assoc.get? n rules).map AttributeRule.holdsNames).getD false
    (p.attributeValue? holdsNames raw).map fun v => (n, v)
  let left := rules.filterMap fun (n, rule) =>
    if (given.map Prod.fst).contains n then none else rule.standard.map fun v => (n, v)
  some (given ++ left)

/-- The scope inside a tag and the name of its element; nothing if an attribute comes twice or an
abbreviation stands for nothing. -/
def enter? (p : Prologue) (scope : Scope) (t : Tag) : Option (Scope × Name) := do
  let values ← t.values? p
  let inside ← scope.extend? (values.filterMap fun (n, v) =>
    (declared? n).map fun a => (a, String.ofList v))
  let others := (values.map Prod.fst).filter fun n => (declared? n).isNone
  let names ← others.mapM inside.attributeName?
  if (values.map Prod.fst).Nodup ∧ names.Nodup then
    (inside.elementName? t.name).map fun n => (inside, n)
  else none

/-! ## Content -/

/-- An open element, or the text of an entity. -/
structure Frame where
  /-- The tag and the name of the element; nothing for the text of an entity. -/
  element : Option (QualifiedName × Name)
  /-- The scope inside. -/
  scope : Scope
  /-- What was read inside, last piece first. -/
  content : List Node

namespace Frame

/-- The frame with one more piece. -/
def add (f : Frame) (n : Node) : Frame := { f with content := n :: f.content }

/-- The frame with more pieces. -/
def addAll (f : Frame) (ns : List Node) : Frame := { f with content := ns.reverse ++ f.content }

end Frame

/-- Characters up to the next markup. -/
def plainText? (cs : List Char) : Option (List Char × List Char) :=
  let (front, rest) := (cs.takeWhile isPlain, cs.dropWhile isPlain)
  if front.all isXmlChar && !Text.occursIn "]]>" front then some (front, rest) else none
where
  /-- A character that begins no markup. -/
  isPlain (c : Char) : Bool := c != '<' && c != '&'

/-- A marked section of characters behind its opening. -/
def section? (cs : List Char) : Option (List Char × List Char) := do
  let (inside, rest) ← Text.cut? "]]>".toList cs
  if inside.all isXmlChar then some (inside, rest) else none

/-- What stands at the front of content. -/
inductive Piece where
  /-- Nothing that is kept. -/
  | nothing
  /-- One character, given by its number. -/
  | char (c : Char)
  /-- Characters as they stand in the text. -/
  | text (cs : List Char)
  /-- A call for a declared text. -/
  | entity (name : String)
  /-- A start tag. -/
  | start (t : Tag)
  /-- An end tag. -/
  | finish (n : QualifiedName)

/-- The first piece of content that is not empty. -/
def piece? (cs : List Char) : Option (Piece × List Char) :=
  match cs with
  | '&' :: rest => do
    match ← reference? rest with
    | (.char c, rest) => some (.char c, rest)
    | (.entity n, rest) => some (.entity n, rest)
  | '<' :: '/' :: rest => (endTag? rest).map fun (n, rest) => (.finish n, rest)
  | '<' :: '?' :: rest => do
    let ((target, _), rest) ← instruction? rest
    if isReservedTarget target then none else some (.nothing, rest)
  | '<' :: '!' :: '-' :: '-' :: rest => (comment? rest).map fun rest => (.nothing, rest)
  | '<' :: '!' :: rest => do
    let (text, rest) ← section? (← Text.after? "[CDATA[".toList rest)
    some (.text text, rest)
  | '<' :: rest => (tag? rest).map fun (t, rest) => (.start t, rest)
  | _ => (plainText? cs).map fun (text, rest) => (.text text, rest)

/-- Reads content in the frame `top` inside the frames `around`, until the outermost element ends,
or to the end of the text of an entity; `lineEnds` makes line ends one. The fuel is the text. -/
def contentWith (p : Prologue) (lineEnds : List Char → List Char)
    (expand : Scope → String → Option (List Node)) :
    (fuel cs : List Char) → (top : Frame) → (around : List Frame) →
      Option (List Node × List Char)
  | fuel, cs, top, around =>
    if cs.isEmpty then
      match top.element, around with
      | none, [] => some (top.content.reverse, [])
      | _, _ => none
    else
      match fuel with
      | [] => none
      | _ :: fuel => do
        let (piece, rest) ← piece? cs
        match piece with
        | .nothing => contentWith p lineEnds expand fuel rest top around
        | .char c => contentWith p lineEnds expand fuel rest (top.add (.text [c])) around
        | .text text =>
          contentWith p lineEnds expand fuel rest (top.add (.text (lineEnds text))) around
        | .entity n =>
          contentWith p lineEnds expand fuel rest (top.addAll (← expand top.scope n)) around
        | .start t =>
          let (inside, n) ← enter? p top.scope t
          if t.closed then contentWith p lineEnds expand fuel rest (top.add (.element n [])) around
          else
            contentWith p lineEnds expand fuel rest ⟨some (t.name, n), inside, []⟩ (top :: around)
        | .finish n =>
          match top.element with
          | some (opened, name) =>
            if opened = n then
              let node := Node.element name top.content.reverse
              match around with
              | [] => some ([node], rest)
              | f :: fs => contentWith p lineEnds expand fuel rest (f.add node) fs
            else none
          | none => none

/-- The content of a declared text outside the texts in `active`; its line ends were made one when
it was declared. -/
def entityContent? (p : Prologue) :
    (depth : Nat) → (active : List String) → Scope → String → Option (List Node)
  | 0, _, _, _ => none
  | depth + 1, active, scope, n =>
    match Assoc.get? n p.entities with
    | some (some text) =>
      if active.contains n then none
      else
        (contentWith p id (entityContent? p depth (n :: active)) text text
          ⟨none, scope, []⟩ []).map Prod.fst
    | _ => none

/-! ## Documents -/

/-- The text without comments, processing instructions and white space at its front. The fuel is
the text. -/
def skipMisc : (fuel cs : List Char) → Option (List Char)
  | [], cs => some (skipSpace cs)
  | _ :: fuel, cs =>
    match skipSpace cs with
    | '<' :: '!' :: '-' :: '-' :: rest => do skipMisc fuel (← comment? rest)
    | '<' :: '?' :: rest => do
      let ((target, _), rest) ← instruction? rest
      if isReservedTarget target then none else skipMisc fuel rest
    | cs => some cs

/-- What the document declares, and the text from its first element on. -/
def prologue? (cs : List Char) : Option (Prologue × List Char) := do
  let (standalone, rest) ← declaration? cs
  let p : Prologue := { Prologue.empty with standalone := standalone }
  let rest ← skipMisc rest rest
  match Text.after? "<!DOCTYPE".toList rest with
  | some rest =>
    let (p, rest) ← doctype? p rest
    let rest ← skipMisc rest rest
    some (p, rest)
  | none => some (p, rest)

/-- The first element of a document. -/
def root? (p : Prologue) (cs : List Char) : Option (Node × List Char) :=
  match cs with
  | '<' :: rest => do
    let (t, rest) ← tag? rest
    let (inside, n) ← enter? p Scope.initial t
    if t.closed then some (.element n [], rest)
    else
      let entity := entityContent? p (p.entities.length + 1) []
      let outer : Frame := ⟨some (t.name, n), inside, []⟩
      match ← contentWith p Text.unifyLineEnds entity rest rest outer [] with
      | ([node], rest) => some (node, rest)
      | _ => none
  | _ => none

/-- The element that a whole document holds; nothing if the document is not well formed. -/
def parse (cs : List Char) : Option Node := do
  let (p, rest) ← prologue? (match cs with
    | c :: rest => if c.toNat = 0xfeff then rest else cs
    | [] => [])
  let (node, rest) ← root? p.bounded rest
  let rest ← skipMisc rest rest
  if rest.isEmpty then some node else none

end ProjectSurvey.Xml
