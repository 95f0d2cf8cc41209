import ProjectSurvey.Text.Utf8
import ProjectSurvey.Yaml.Scalar

/-!
# Tokens of YAML

The tokens of a text. Indentation is turned into tokens here: a deeper column opens a block, a
lesser one closes blocks. A token that might be the key of a mapping is remembered until the colon
that makes it one, on the same line and at most 1024 characters on; **the token of the key is then
put in front of it**. A fault ends the tokens with one of its own, so that a fault of structure in
front of it can be told first; but a token that might still be a key at that point is not settled,
and it and those behind it are left out.
-/

namespace ProjectSurvey.Yaml

/-- A directive. -/
inductive Directive where
  /-- The version of the language: the number in front of the point. -/
  | version (major : Nat)
  /-- An abbreviation of tags. -/
  | handle (name expansion : String)
  /-- Any other. -/
  | other
  deriving DecidableEq

/-- A token. -/
inductive Token where
  /-- A directive. -/
  | directive (d : Directive)
  /-- The marker of the start of a document. -/
  | documentStart
  /-- The marker of the end of a document. -/
  | documentEnd
  /-- The end of the text. -/
  | streamEnd
  /-- A list by indentation begins. -/
  | blockSequence
  /-- A mapping by indentation begins. -/
  | blockMapping
  /-- A block ends. -/
  | blockEnd
  /-- A bracket that opens a list. -/
  | sequenceOpen
  /-- A bracket that closes a list. -/
  | sequenceClose
  /-- A brace that opens a mapping. -/
  | mappingOpen
  /-- A brace that closes a mapping. -/
  | mappingClose
  /-- The dash of an item. -/
  | blockEntry
  /-- The comma between items. -/
  | flowEntry
  /-- A key follows. -/
  | key
  /-- A value follows. -/
  | value
  /-- A reference to an anchor. -/
  | alias (name : String)
  /-- A name for the node that follows. -/
  | anchor (name : String)
  /-- A tag: an abbreviation, if there is one, and what follows it. -/
  | tag (handle : Option String) (suffix : String)
  /-- A scalar, and whether it is plain. -/
  | scalar (text : String) (isPlain : Bool)
  /-- Nothing could be read on from here. -/
  | broken (fault : Fault)
  deriving DecidableEq

/-! ## Names and tags -/

/-- The characters of names of anchors, handles and directives. -/
def isNameChar (c : Char) : Bool := Text.isAsciiAlnum c || c == '-' || c == '_'

/-- The name of an anchor behind its sign. -/
def anchorName (p : Place) : Except Fault (String × Place) :=
  let (name, p) := p.takeWhile isNameChar
  if name.isEmpty then .error .malformed
  else if gapsOrEnds p.peek || p.isIn (fun c => "?:,]\x7d%@`".toList.contains c) then
    .ok (String.ofList name, p)
  else .error .malformed

/-- The octets of escapes in a tag. -/
def uriOctets (acc : List UInt8) : List Char → Option (List UInt8 × Nat)
  | '%' :: a :: b :: cs => do
    let n ← Text.number? 16 [a, b]
    uriOctets (UInt8.ofNat n :: acc) cs
  | '%' :: _ => none
  | _ => some (acc.reverse, 3 * acc.length)

/-- The characters of a tag that stand for themselves. -/
def isUriChar (c : Char) : Bool :=
  Text.isAsciiAlnum c || "-;/?:@&=+$,_.!~*'()[]".toList.contains c

/-- The text of a tag. The fuel is the text. -/
def uri (acc : List Char) : (fuel : List Char) → Place → Except Fault (List Char × Place)
  | [], _ => .error .malformed
  | _ :: fuel, p =>
    let (cs, p) := p.takeWhile isUriChar
    let acc := acc ++ cs
    if p.isAt '%' then
      match uriOctets [] p.rest with
      | none => .error .malformed
      | some (octets, length) =>
        match Text.Utf8.decode? octets with
        | none => .error .malformed
        | some cs => uri (acc ++ cs) fuel (p.skip length)
    else .ok (acc, p)

/-- The text of a tag, which is not empty. -/
def tagText (p : Place) : Except Fault (String × Place) :=
  match uri [] p.rest p with
  | .error e => .error e
  | .ok (cs, q) => if p.index = q.index then .error .malformed else .ok (String.ofList cs, q)

/-- A handle: a single exclamation mark, or a name between two. -/
def tagHandle (p : Place) : Except Fault (String × Place) :=
  if !p.isAt '!' then .error .malformed
  else
    let p := p.next
    if p.isAt ' ' then .ok ("!", p)
    else
      let (name, p) := p.takeWhile isNameChar
      if p.isAt '!' then .ok (String.ofList ('!' :: name ++ ['!']), p.next)
      else .error .malformed

/-- Whether a second exclamation mark comes before the next blank. -/
def hasHandle (p : Place) : Bool :=
  (p.rest.drop 1).takeWhile (fun c => !(spacesOrEnds (some c))) |>.contains '!'

/-- A tag. -/
def readTag (p : Place) : Except Fault (Token × Place) := do
  let (token, p) ←
    if p.peekAt 1 = some '<' then do
      let (suffix, p) ← tagText (p.skip 2)
      if p.isAt '>' then .ok (Token.tag none suffix, p.next) else .error .malformed
    else if gapsOrEnds (p.peekAt 1) then .ok (Token.tag none "!", p.next)
    else do
      let (handle, p) ← if hasHandle p then tagHandle p else .ok ("!", p.next)
      let (suffix, p) ← tagText p
      .ok (Token.tag (some handle) suffix, p)
  if spacesOrEnds p.peek then .ok (token, p) else .error .malformed

/-! ## Directives -/

/-- A run of digits. -/
def digits (p : Place) : Except Fault (Nat × Place) :=
  let (ds, p) := p.takeWhile Text.isAsciiDigit
  if ds.isEmpty then .error .malformed
  else if ds.length > Text.digitLimit then .error (.longInteger ds.length)
  else .ok ((Text.number? 10 ds).getD 0, p)

/-- The version in a directive. -/
def versionDirective (p : Place) : Except Fault (Directive × Place) := do
  let (major, p) ← digits (p.skipWhile (· == ' '))
  if p.isAt '.' then do
    let (_, p) ← digits p.next
    if spacesOrEnds p.peek then .ok (.version major, p) else .error .malformed
  else .error .malformed

/-- The abbreviation in a directive. -/
def handleDirective (p : Place) : Except Fault (Directive × Place) := do
  let (name, p) ← tagHandle (p.skipWhile (· == ' '))
  if p.isAt ' ' then do
    let (expansion, p) ← tagText (p.skipWhile (· == ' '))
    if spacesOrEnds p.peek then .ok (.handle name expansion, p) else .error .malformed
  else .error .malformed

/-- A directive behind its sign, with the rest of its line. -/
def readDirective (p : Place) : Except Fault (Token × Place) := do
  let (name, p) := p.takeWhile isNameChar
  if name.isEmpty || !spacesOrEnds p.peek then .error .malformed
  else do
    let (d, p) ←
      if name = "YAML".toList then versionDirective p
      else if name = "TAG".toList then handleDirective p
      else .ok (.other, p.skipWhile fun c => !isBreak c)
    .ok (.directive d, ← ignoredLine p)

/-! ## The state of the reading -/

/-- A token that may turn out to be a key. -/
structure PossibleKey where
  /-- How many tokens precede it. -/
  position : Nat
  /-- Whether it must be a key. -/
  required : Bool
  /-- Where it is. -/
  place : Place

/-- A reading in progress. -/
structure Reading where
  /-- Where it is. -/
  place : Place
  /-- The tokens read, last one first. -/
  tokens : List Token
  /-- Their number. -/
  count : Nat
  /-- How many brackets and braces are open. -/
  flow : Nat
  /-- The column of the innermost block; -1 outside all blocks. -/
  indent : Int
  /-- The columns of the blocks around it. -/
  indents : List Int
  /-- Whether a key may begin here. -/
  keyAllowed : Bool
  /-- The possible keys by the number of brackets open at them. -/
  keys : List (Nat × PossibleKey)

namespace Reading

/-- The reading before the first token. -/
def start (cs : List Char) : Reading := ⟨Place.start cs, [], 0, 0, -1, [], true, []⟩

/-- The reading with one more token. -/
def push (r : Reading) (t : Token) : Reading :=
  { r with tokens := t :: r.tokens, count := r.count + 1 }

/-- The reading with a token put in behind `n` others. -/
def insertAt (r : Reading) (n : Nat) (t : Token) : Reading :=
  let (later, earlier) := r.tokens.splitAt (r.count - n)
  { r with tokens := later ++ t :: earlier, count := r.count + 1 }

/-- The reading at another place. -/
def goTo (r : Reading) (p : Place) : Reading := { r with place := p }

/-- The reading with a decision whether a key may follow. -/
def allowKey (r : Reading) (b : Bool) : Reading := { r with keyAllowed := b }

/-- Forgets the possible keys that are too far away; one that had to be a key is a fault. -/
def dropStale (r : Reading) : Except Fault Reading :=
  let isStale (k : PossibleKey) : Bool :=
    k.place.line != r.place.line || decide (r.place.index - k.place.index > 1024)
  let (stale, fresh) := r.keys.partition fun (_, k) => isStale k
  if stale.any fun (_, k) => k.required then .error .malformed else .ok { r with keys := fresh }

/-- Forgets the possible key between the present brackets; one that had to be a key is a fault. -/
def forgetKey (r : Reading) : Except Fault Reading :=
  let (here, others) := r.keys.partition fun (level, _) => level == r.flow
  if here.any fun (_, k) => k.required then .error .malformed else .ok { r with keys := others }

/-- Remembers the token that comes next as a possible key. -/
def rememberKey (r : Reading) : Except Fault Reading := do
  if r.keyAllowed then
    let required := r.flow == 0 && r.indent == (r.place.column : Int)
    let r ← r.forgetKey
    .ok { r with keys := (r.flow, ⟨r.count, required, r.place⟩) :: r.keys }
  else .ok r

/-- Closes the blocks that are indented more than a column, given the columns around. -/
def unwindFrom (column : Int) (r : Reading) : List Int → Reading
  | [] => { r with indents := [] }
  | outer :: around =>
    if column < r.indent then
      unwindFrom column { r.push .blockEnd with indent := outer } around
    else { r with indents := outer :: around }

/-- Closes the blocks that are indented more than a column; brackets suspend indentation. -/
def unwind (column : Int) (r : Reading) : Reading :=
  if r.flow = 0 then unwindFrom column r r.indents else r

/-- Opens a block at a column, if that is further right, with a token put in behind `n` others. -/
def indentTo (r : Reading) (column : Nat) (n : Nat) (t : Token) : Reading :=
  if r.indent < (column : Int) then
    { r.insertAt n t with indent := column, indents := r.indent :: r.indents }
  else r

/-! ## One token -/

/-- The place of the next token: blanks, comments and line breaks are passed. The fuel is the
text. -/
def toNextToken : (fuel : List Char) → Reading → Reading
  | [], r => r
  | _ :: fuel, r =>
    let p := r.place.skipWhile (· == ' ')
    let p := if p.isAt '#' then p.skipWhile (fun c => !isBreak c) else p
    match p.lineBreak? with
    | some (_, p) =>
      toNextToken fuel { r.goTo p with keyAllowed := r.keyAllowed || r.flow == 0 }
    | none => r.goTo p

/-- Reads a token that closes all blocks. -/
def outermost (r : Reading) (read : Place → Except Fault (Token × Place)) :
    Except Fault Reading := do
  let r ← (r.unwind (-1)).forgetKey
  let (t, p) ← read r.place
  .ok ((r.goTo p).push t |>.allowKey false)

/-- Reads a token that may be a key. -/
def keyLike (r : Reading) (read : Place → Except Fault (Token × Place)) :
    Except Fault Reading := do
  let r ← r.rememberKey
  let (t, p) ← read r.place
  .ok ((r.goTo p).push t |>.allowKey false)

/-- How many brackets are read inside one another. What is made of the tokens may nest far less
deeply, so nothing that follows can matter, and it is left unread. -/
def bracketLimit : Nat := 2000

/-- Reads an opening bracket. -/
def openFlow (r : Reading) (t : Token) : Except Fault Reading := do
  let r ← r.rememberKey
  let after := if r.flow < bracketLimit then r.place.next else { r.place with rest := [] }
  .ok { (r.goTo after).push t with flow := r.flow + 1, keyAllowed := true }

/-- Reads a closing bracket. -/
def closeFlow (r : Reading) (t : Token) : Except Fault Reading := do
  let r ← r.forgetKey
  .ok { (r.goTo r.place.next).push t with flow := r.flow - 1, keyAllowed := false }

/-- Reads a comma. -/
def flowEntry (r : Reading) : Except Fault Reading := do
  let r ← r.forgetKey
  .ok ((r.goTo r.place.next).push .flowEntry |>.allowKey true)

/-- Reads a sign that opens or continues the block of the given kind. -/
def blockSign (r : Reading) (opening sign : Token) (keyAfter : Bool) : Except Fault Reading := do
  if r.flow = 0 ∧ r.keyAllowed = false then .error .malformed
  else
    let r := if r.flow = 0 then r.indentTo r.place.column r.count opening else r
    let r ← (r.allowKey keyAfter).forgetKey
    .ok ((r.goTo r.place.next).push sign)

/-- Reads the colon in front of a value. -/
def valueSign (r : Reading) : Except Fault Reading :=
  match r.keys.find? fun (level, _) => level == r.flow with
  | some (_, k) =>
    let r := { r with keys := r.keys.filter fun (level, _) => level != r.flow }
    let r := r.insertAt k.position .key
    let r := if r.flow = 0 then r.indentTo k.place.column k.position .blockMapping else r
    .ok ((r.goTo r.place.next).push .value |>.allowKey false)
  | none => r.blockSign .blockMapping .value (r.flow == 0)

/-- Reads a block scalar. -/
def blockScalar (r : Reading) (folded : Bool) : Except Fault Reading := do
  let r ← (r.allowKey true).forgetKey
  let (text, p) ← block folded r.indent r.place.next
  .ok ((r.goTo p).push (.scalar text false))

/-- Reads a quoted scalar. -/
def quotedScalar (r : Reading) (double : Bool) : Except Fault Reading :=
  r.keyLike fun p => do
    let (text, p) ← quoted double [] p.rest p.next
    .ok (.scalar text false, p)

/-- Whether a plain scalar may begin here. -/
def startsPlain (r : Reading) : Bool :=
  match r.place.peek with
  | none => false
  | some c =>
    !(gapsOrEnds (some c) || "-?:,[]\x7b\x7d#&*!|>'\"%@`".toList.contains c) ||
      (!gapsOrEnds (r.place.peekAt 1) && (c == '-' || (r.flow == 0 && (c == '?' || c == ':'))))

/-- Reads a plain scalar; a line break behind it allows a key again. -/
def plainScalar (r : Reading) : Except Fault Reading := do
  let r ← r.rememberKey
  let (text, broken, p) :=
    plain (r.flow != 0) (r.indent + 1) [] [] false r.place.rest r.place
  .ok ((r.goTo p).push (.scalar text true) |>.allowKey broken)

/-- Reads the token that begins with `c`. -/
def tokenAt (r : Reading) (c : Char) : Except Fault Reading :=
  let p := r.place
  let gapAfter := gapsOrEnds (p.peekAt 1)
  if c = '%' ∧ p.column = 0 then r.outermost fun p => readDirective p.next
  else if p.column = 0 ∧ p.isMarker '-' then r.outermost fun p => .ok (.documentStart, p.skip 3)
  else if p.column = 0 ∧ p.isMarker '.' then r.outermost fun p => .ok (.documentEnd, p.skip 3)
  else if c = '[' then r.openFlow .sequenceOpen
  else if c = '\x7b' then r.openFlow .mappingOpen
  else if c = ']' then r.closeFlow .sequenceClose
  else if c = '\x7d' then r.closeFlow .mappingClose
  else if c = ',' then r.flowEntry
  else if c = '-' ∧ gapAfter then r.blockSign .blockSequence .blockEntry true
  else if c = '?' ∧ (r.flow ≠ 0 ∨ gapAfter) then r.blockSign .blockMapping .key (r.flow == 0)
  else if c = ':' ∧ (r.flow ≠ 0 ∨ gapAfter) then r.valueSign
  else if c = '*' then
    r.keyLike fun p => do
      let (n, p) ← anchorName p.next
      .ok (.alias n, p)
  else if c = '&' then
    r.keyLike fun p => do
      let (n, p) ← anchorName p.next
      .ok (.anchor n, p)
  else if c = '!' then r.keyLike readTag
  else if c = '|' ∧ r.flow = 0 then r.blockScalar false
  else if c = '>' ∧ r.flow = 0 then r.blockScalar true
  else if c = '\'' then r.quotedScalar false
  else if c = '"' then r.quotedScalar true
  else if r.startsPlain then r.plainScalar
  else .error .malformed

/-- Reads the next token; `none` together with the reading once the text has ended. -/
def step (r : Reading) : Except Fault (Bool × Reading) := do
  let r ← (toNextToken r.place.rest r).dropStale
  let r := r.unwind r.place.column
  match r.place.peek with
  | none => do
    let r ← (r.unwind (-1)).forgetKey
    .ok (true, r.push .streamEnd)
  | some c => do
    let r ← r.tokenAt c
    .ok (false, r)

/-- How many tokens stand in front of the first one that may yet turn out to be a key. -/
def settled (r : Reading) : Nat := r.keys.foldl (fun n (_, k) => min n k.position) r.count

/-- The settled tokens and a fault. -/
def breakOff (r : Reading) (f : Fault) : List Token :=
  (.broken f :: r.tokens.drop (r.count - r.settled)).reverse

/-- Reads tokens until the text ends or a fault is met. -/
def run : (fuel : Nat) → Reading → List Token
  | 0, r => r.breakOff .malformed
  | fuel + 1, r =>
    match r.dropStale with
    | .error f => r.breakOff f
    | .ok r =>
      match r.step with
      | .error f => r.breakOff f
      | .ok (true, r) => r.tokens.reverse
      | .ok (false, r) => run fuel r

end Reading

/-- The tokens of a text; a byte order mark at its start is passed over. -/
def tokens (cs : List Char) : List Token :=
  if cs.all isAllowed then
    let r := Reading.start cs
    (if r.place.isAt byteOrderMark then r.goTo r.place.next else r).run (cs.length + 2)
  else [.broken .malformed]

end ProjectSurvey.Yaml
