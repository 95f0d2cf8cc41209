/-!
# XML documents

What a reader of XML keeps of a document: elements with their names resolved to namespaces, and
the text between them. **Comments, processing instructions and attributes are not kept**, and a
text interrupted by one of the first two goes on behind it.
-/

namespace ProjectSurvey.Xml

/-- A name in a namespace; the empty space is no namespace. -/
structure Name where
  /-- The namespace. -/
  space : String
  /-- The name in it. -/
  part : String
  deriving DecidableEq, Inhabited

/-- A piece of a document. -/
inductive Node where
  /-- Characters. -/
  | text (cs : List Char)
  /-- An element and what it holds. -/
  | element (name : Name) (content : List Node)
  deriving Inhabited

namespace Node

/-- The pieces inside an element; a text has none. -/
def content : Node → List Node
  | text _ => []
  | element _ c => c

/-- The name of an element. -/
def name? : Node → Option Name
  | text _ => none
  | element n _ => some n

/-- Whether a node is an element of the given name, the space `*` standing for every namespace. -/
def isElement (name : Name) (n : Node) : Bool :=
  match n.name? with
  | some m => m.part == name.part && (name.space == "*" || m.space == name.space)
  | none => false

/-- The characters in front of the first element among some pieces. -/
def leadingText : List Node → List Char
  | text cs :: rest => cs ++ leadingText rest
  | _ => []

/-- The leading text of the first element of a name directly inside. -/
def childText? (name : Name) (n : Node) : Option (List Char) :=
  (n.content.find? (isElement name)).map fun c => leadingText c.content

mutual

/-- The elements of a name below a node, in the order of their start. -/
def descendants (name : Name) : Node → List Node
  | text _ => []
  | element _ c => descendantsOf name c

/-- The elements of a name among some nodes and below them. -/
def descendantsOf (name : Name) : List Node → List Node
  | [] => []
  | n :: ns => (if isElement name n then [n] else []) ++ descendants name n ++ descendantsOf name ns

end

end Node

end ProjectSurvey.Xml
