import ProjectSurvey.Yaml.Tag
import ProjectSurvey.Yaml.Token

/-!
# Nodes of YAML

The nodes of a text and how they hang together. A node is a scalar, a list or a mapping with a tag,
and it names the nodes that it holds by their numbers: **an alias is the number of the node that it
stands for**, so that a node may even hold itself. `Graph.ofText` reads the one document of a text;
nesting is bounded by `nestingLimit`, loops by the tokens left.
-/

namespace ProjectSurvey.Yaml

/-- What a node is made of. -/
inductive Content where
  /-- A text. -/
  | scalar (text : String)
  /-- The items of a list. -/
  | sequence (items : List Nat)
  /-- The keys of a mapping with their values. -/
  | mapping (members : List (Nat × Nat))
  deriving Inhabited

/-- A node. -/
structure Node where
  /-- Its tag. -/
  tag : Tag
  /-- What it is made of. -/
  content : Content

namespace Node

/-- Nothing where a node might stand. -/
def nothing : Node := ⟨.null, .scalar ""⟩

/-- The members of a mapping; other nodes have none. -/
def members (n : Node) : List (Nat × Nat) :=
  match n.content with
  | .mapping ms => ms
  | _ => []

end Node

/-- The nodes of a text by their numbers, and the outermost one if there is one. -/
structure Graph where
  /-- The nodes. -/
  nodes : Array Node
  /-- The outermost one. -/
  root : Option Nat

/-! ## Reading nodes -/

/-- A reading of nodes in progress. -/
structure Source where
  /-- The tokens to come. -/
  tokens : List Token
  /-- The nodes so far. -/
  nodes : Array Node
  /-- The anchors so far. -/
  anchors : List (String × Nat)
  /-- How many containers are open. -/
  level : Nat
  /-- The abbreviations of tags. -/
  handles : List (String × String)

/-- A reader of nodes. -/
abbrev Reader := StateT Source (Except Fault)

namespace Reader

/-- Gives up. -/
def fail {α : Type} (f : Fault) : Reader α := fun _ => .error f

/-- The next token. A text that could not be read on ends here. -/
def peek : Reader Token := fun s =>
  match s.tokens with
  | [] => .error .malformed
  | .broken f :: _ => .error f
  | t :: _ => .ok (t, s)

/-- Passes the next token. -/
def pass : Reader Unit := fun s => .ok ((), { s with tokens := s.tokens.drop 1 })

/-- Passes the next token, which must be the given one. -/
def expect (t : Token) : Reader Unit := do
  if (← peek) = t then pass else fail .malformed

/-- Whether the next token is one of some. -/
def isNext (ts : List Token) : Reader Bool := do return ts.contains (← peek)

/-- The tokens to come. -/
def left : Reader (List Token) := fun s => .ok (s.tokens, s)

/-- The number of a new node. -/
def add (n : Node) : Reader Nat := fun s =>
  .ok (s.nodes.size, { s with nodes := s.nodes.push n })

/-- Nothing if one of some tokens is next, and else a node. -/
def nodeUnless (ts : List Token) (node : Reader Nat) : Reader Nat := do
  if ← isNext ts then add Node.nothing else node

/-! ### Anchors and tags -/

/-- Names a node; a name may be given once only. -/
def declare (name : Option String) (n : Nat) : Reader Unit := fun s =>
  match name with
  | none => .ok ((), s)
  | some a =>
    if (s.anchors.lookup a).isSome then .error .malformed
    else .ok ((), { s with anchors := (a, n) :: s.anchors })

/-- The node that a name stands for. -/
def resolve (name : String) : Reader Nat := fun s =>
  match s.anchors.lookup name with
  | some n => .ok (n, s)
  | none => .error .malformed

/-- The full name of a tag. -/
def fullTag (handle : Option String) (suffix : String) : Reader String := fun s =>
  match handle with
  | none => .ok (suffix, s)
  | some h =>
    match s.handles.lookup h with
    | some expansion => .ok (expansion ++ suffix, s)
    | none => .error .malformed

/-- A tag as it is written, if one is next. -/
def tag? : Reader (Option (Option String × String)) := do
  match ← peek with
  | .tag h x =>
    pass
    return some (h, x)
  | _ => return none

/-- The name of an anchor, if one is next. -/
def anchor? : Reader (Option String) := do
  match ← peek with
  | .anchor n =>
    pass
    return some n
  | _ => return none

/-- The anchor and the tag of a node, in either order. -/
def properties : Reader (Option String × Option String) := do
  let (anchor, written) ← match ← anchor? with
    | some a => pure (some a, ← tag?)
    | none =>
      match ← tag? with
      | some t => pure (← anchor?, some t)
      | none => pure (none, none)
  match written with
  | some (h, x) => return (anchor, some (← fullTag h x))
  | none => return (anchor, none)

/-- The tag in force: the given one, unless it leaves the choice open. -/
def chosen (tag : Option String) (usual : Tag) : Tag :=
  match tag with
  | some t => if t = "!" then usual else Tag.ofName t
  | none => usual

/-- How deeply containers may nest. -/
def nestingLimit : Nat := 489

/-- A container, which has its number and its name before its content is read. -/
def container (anchor : Option String) (tag : Tag) (content : Reader Content) : Reader Nat := do
  let n ← add ⟨tag, .sequence []⟩
  declare anchor n
  if nestingLimit ≤ (← get).level then fail .tooDeep
  modify fun s => { s with level := s.level + 1 }
  let c ← content
  modify fun s => { s with level := s.level - 1, nodes := s.nodes.setIfInBounds n ⟨tag, c⟩ }
  return n

/-- A scalar. -/
def scalar (anchor tag : Option String) (text : String) (byShape : Bool) : Reader Nat := do
  let usual := if byShape || tag.isSome then Shape.tagOf text.toList else .str
  let n ← add ⟨chosen tag usual, .scalar text⟩
  declare anchor n
  return n

/-! ### Lists and mappings -/

/-- The items of a block list behind its opening. The fuel is the tokens. -/
def blockItems (node : Reader Nat) (acc : List Nat) : (fuel : List Token) → Reader (List Nat)
  | [] => fail .malformed
  | _ :: fuel => do
    match ← peek with
    | .blockEntry =>
      pass
      let n ← nodeUnless [.blockEntry, .blockEnd] node
      blockItems node (n :: acc) fuel
    | .blockEnd =>
      pass
      return acc.reverse
    | _ => fail .malformed

/-- The items of a list that is not indented against the key in front of it. The fuel is the
tokens. -/
def levelItems (node : Reader Nat) (acc : List Nat) : (fuel : List Token) → Reader (List Nat)
  | [] => fail .malformed
  | _ :: fuel => do
    match ← peek with
    | .blockEntry =>
      pass
      let n ← nodeUnless [.blockEntry, .key, .value, .blockEnd] node
      levelItems node (n :: acc) fuel
    | _ => return acc.reverse

/-- The members of a block mapping behind its opening. The fuel is the tokens. -/
def blockMembers (node : Reader Nat) (acc : List (Nat × Nat)) :
    (fuel : List Token) → Reader (List (Nat × Nat))
  | [] => fail .malformed
  | _ :: fuel => do
    match ← peek with
    | .key =>
      pass
      let k ← nodeUnless [.key, .value, .blockEnd] node
      if ← isNext [.value] then
        pass
        let v ← nodeUnless [.key, .value, .blockEnd] node
        blockMembers node ((k, v) :: acc) fuel
      else blockMembers node ((k, ← add Node.nothing) :: acc) fuel
    | .blockEnd =>
      pass
      return acc.reverse
    | _ => fail .malformed

/-- A value behind the key of a flow container, if a colon follows. -/
def flowValue (node : Reader Nat) (ends : List Token) : Reader Nat := do
  if ← isNext [.value] then
    pass
    nodeUnless ends node
  else add Node.nothing

/-- The pair of a key and a value that stands for a mapping of one member. -/
def flowPair (node : Reader Nat) : Reader Nat := container none .map do
  pass
  let k ← nodeUnless [.value, .flowEntry, .sequenceClose] node
  let v ← flowValue node [.flowEntry, .sequenceClose]
  return .mapping [(k, v)]

/-- The items of a list in brackets behind the opening one. The fuel is the tokens. -/
def flowItems (node : Reader Nat) (acc : List Nat) : (fuel : List Token) → Reader (List Nat)
  | [] => fail .malformed
  | _ :: fuel => do
    if ← isNext [.sequenceClose] then
      pass
      return acc.reverse
    else
      if !acc.isEmpty then expect .flowEntry
      match ← peek with
      | .sequenceClose =>
        pass
        return acc.reverse
      | .key =>
        let n ← flowPair node
        flowItems node (n :: acc) fuel
      | _ =>
        let n ← node
        flowItems node (n :: acc) fuel

/-- The members of a mapping in braces behind the opening one. The fuel is the tokens. -/
def flowMembers (node : Reader Nat) (acc : List (Nat × Nat)) :
    (fuel : List Token) → Reader (List (Nat × Nat))
  | [] => fail .malformed
  | _ :: fuel => do
    if ← isNext [.mappingClose] then
      pass
      return acc.reverse
    else
      if !acc.isEmpty then expect .flowEntry
      match ← peek with
      | .mappingClose =>
        pass
        return acc.reverse
      | .key =>
        pass
        let k ← nodeUnless [.value, .flowEntry, .mappingClose] node
        let v ← flowValue node [.flowEntry, .mappingClose]
        flowMembers node ((k, v) :: acc) fuel
      | _ =>
        let k ← node
        flowMembers node ((k, ← add Node.nothing) :: acc) fuel

/-! ### Nodes -/

/-- A node. Blocks may begin where `inBlock` holds; with `afterKey` a list need not be indented. A
node inside another has fewer tokens left than that one. -/
def node : (fuel : List Token) → (inBlock afterKey : Bool) → Reader Nat
  | [], _, _ => fail .malformed
  | _ :: fuel, inBlock, afterKey => do
    match ← peek with
    | .alias n =>
      pass
      resolve n
    | _ =>
      let (anchor, tag) ← properties
      let ts ← left
      match ← peek, inBlock, afterKey with
      | .blockEntry, _, true => container anchor (chosen tag .seq) do
        return .sequence (← levelItems (node fuel true false) [] ts)
      | .scalar text isPlain, _, _ =>
        pass
        scalar anchor tag text isPlain
      | .sequenceOpen, _, _ => container anchor (chosen tag .seq) do
        pass
        return .sequence (← flowItems (node fuel false false) [] ts)
      | .mappingOpen, _, _ => container anchor (chosen tag .map) do
        pass
        return .mapping (← flowMembers (node fuel false false) [] ts)
      | .blockSequence, true, _ => container anchor (chosen tag .seq) do
        pass
        return .sequence (← blockItems (node fuel true false) [] ts)
      | .blockMapping, true, _ => container anchor (chosen tag .map) do
        pass
        return .mapping (← blockMembers (node fuel true true) [] ts)
      | _, _, _ =>
        if anchor.isSome || tag.isSome then scalar anchor tag "" true else fail .malformed

/-! ### Documents -/

/-- The abbreviations that need no directive. -/
def usualHandles : List (String × String) := [("!", "!"), ("!!", tagSpace)]

/-- The directives in front of a document; the version may be told once, and each abbreviation. The
fuel is the tokens. -/
def directives (versionSeen : Bool) (handles : List (String × String)) :
    (fuel : List Token) → Reader Unit
  | [] => fail .malformed
  | _ :: fuel => do
    match ← peek with
    | .directive (.version major) =>
      if versionSeen || major != 1 then fail .malformed
      else
        pass
        directives true handles fuel
    | .directive (.handle name expansion) =>
      if (handles.lookup name).isSome then fail .malformed
      else
        pass
        directives versionSeen ((name, expansion) :: handles) fuel
    | .directive .other =>
      pass
      directives versionSeen handles fuel
    | _ => modify fun s => { s with handles := handles ++ usualHandles }

/-- Passes the markers of the end of a document. The fuel is the tokens. -/
def passEnds : (fuel : List Token) → Reader Unit
  | [] => fail .malformed
  | _ :: fuel => do
    if ← isNext [.documentEnd] then
      pass
      passEnds fuel

/-- The tokens that begin an explicit document, or end the text. -/
def startsExplicitly : Token → Bool
  | .directive _ => true
  | .documentStart => true
  | .streamEnd => true
  | _ => false

/-- The only document of a text; none if the text holds none. -/
def document : Reader (Option Nat) := do
  let ts ← left
  if !startsExplicitly (← peek) then
    let d ← node ts true false
    passEnds ts
    expect .streamEnd
    return some d
  else if ← isNext [.streamEnd] then return none
  else
    directives false [] ts
    expect .documentStart
    let next ← peek
    let d ←
      if startsExplicitly next || next = .documentEnd then add Node.nothing
      else node ts true false
    passEnds ts
    expect .streamEnd
    return some d

end Reader

/-- The nodes of the only document of a text. -/
def Graph.ofText (cs : List Char) : Except Fault Graph := do
  let (root, s) ← Reader.document.run ⟨tokens cs, #[], [], 0, Reader.usualHandles⟩
  .ok ⟨s.nodes, root⟩

end ProjectSurvey.Yaml
