import ProjectSurvey.Toml.Scalar

/-!
# Reading TOML

A reader of TOML documents as tables. A document is a list of statements, each of which adds to the
tables made so far; the `Ledger` remembers which tables were declared and which values are closed,
so that **no statement can overwrite or reopen what another one has settled**. The room for nested
values is the structural argument of `value`; loops are bounded by the text.
-/

namespace ProjectSurvey.Toml

/-- A dotted key. -/
abbrev Key := List String

/-- The members of a table. -/
abbrev Members := List (String × Datum)

/-- The room for the nesting of arrays and inline tables. -/
def nestingRoom : Nat := 982

/-! ## Tables inside tables -/

/-- Changes the table behind a key, making the tables on the way; nothing if a value stands in the
way. With `throughLists` the last item of a list of tables is entered. -/
def within (throughLists : Bool) : Key → (Members → Option Members) → Members → Option Members
  | [], f, t => f t
  | k :: ks, f, t =>
    match Assoc.get? k t with
    | none => (within throughLists ks f []).map fun u => Assoc.insert k (.table u) t
    | some (.table u) => (within throughLists ks f u).map fun u => Assoc.insert k (.table u) t
    | some (.list ds) =>
      match throughLists, ds.getLast? with
      | true, some (.table u) =>
        (within throughLists ks f u).map fun u =>
          Assoc.insert k (.list (ds.dropLast ++ [.table u])) t
      | _, _ => none
    | some _ => none

/-- Adds a member that must be new. -/
def addNew (k : String) (d : Datum) (t : Members) : Option Members :=
  if Assoc.has k t then none else some (t ++ [(k, d)])

/-- Adds an empty table to the list of tables behind a name. -/
def appendTable (k : String) (t : Members) : Option Members :=
  match Assoc.get? k t with
  | none => some (t ++ [(k, .list [.table []])])
  | some (.list ds) => some (Assoc.insert k (.list (ds ++ [.table []])) t)
  | some _ => none

/-! ## What is settled -/

/-- What statements have settled. -/
structure Ledger where
  /-- Tables that may not be declared again. -/
  declared : List Key
  /-- Values to which nothing may be added, neither directly nor further down. -/
  closed : List Key
  /-- Tables that count as declared from the next header on. -/
  pending : List Key

namespace Ledger

/-- Nothing is settled. -/
def empty : Ledger := ⟨[], [], []⟩

/-- Whether nothing may be added behind a key. -/
def isClosed (l : Ledger) (key : Key) : Bool := l.closed.any fun c => c.isPrefixOf key

/-- Whether a table is declared. -/
def isDeclared (l : Ledger) (key : Key) : Bool := l.declared.contains key

/-- Pending tables become declared ones. -/
def settle (l : Ledger) : Ledger := ⟨l.pending ++ l.declared, l.closed, []⟩

/-- Forgets everything about a key and what is below it. -/
def release (l : Ledger) (key : Key) : Ledger :=
  ⟨l.declared.filter fun d => !(key.isPrefixOf d), l.closed.filter fun c => !(key.isPrefixOf c),
    l.pending⟩

end Ledger

/-! ## Blanks and comments -/

/-- The text without leading blanks. -/
def skipGap (cs : List Char) : List Char := cs.dropWhile isGap

/-- The text without a comment at its front; nothing if the comment holds a control character. -/
def skipComment? (cs : List Char) : Option (List Char) :=
  match cs with
  | '#' :: rest =>
    if (rest.takeWhile (· != '\n')).any (isIllegal false) then none
    else some (rest.dropWhile (· != '\n'))
  | _ => some cs

/-- The text without leading blanks, line ends and comments. The fuel is the text. -/
def skipSpace : (fuel cs : List Char) → Option (List Char)
  | [], cs => some cs
  | _ :: fuel, cs =>
    match cs.dropWhile isSpace with
    | '#' :: rest =>
      match skipComment? ('#' :: rest) with
      | some cs => skipSpace fuel cs
      | none => none
    | cs => some cs

/-! ## Keys and values -/

/-- The further parts of a dotted key. The fuel is the text. -/
def keyTail (acc : Key) : (fuel cs : List Char) → ReadResult Key
  | [], cs => .ok (acc.reverse, cs)
  | _ :: fuel, cs =>
    match skipGap cs with
    | '.' :: rest =>
      match keyPart (skipGap rest) with
      | .ok (k, rest) => keyTail (k :: acc) fuel rest
      | .error e => .error e
    | cs => .ok (acc.reverse, cs)

/-- A dotted key and the blanks after it. -/
def key (cs : List Char) : ReadResult Key :=
  match keyPart cs with
  | .ok (k, rest) => keyTail [k] cs rest
  | .error e => .error e

/-- A key, an equals sign and a value that `item` reads. -/
def keyValue (item : List Char → ReadResult Datum) (cs : List Char) : ReadResult (Key × Datum) :=
  match key cs with
  | .error e => .error e
  | .ok (k, rest) =>
    match rest with
    | '=' :: rest => (item (skipGap rest)).map fun (d, rest) => ((k, d), rest)
    | _ => .error .malformed

/-- The items of an array of which at least one is due. The fuel is the text. -/
def items (item : List Char → ReadResult Datum) (acc : List Datum) :
    (fuel cs : List Char) → ReadResult Datum
  | [], _ => .error .malformed
  | _ :: fuel, cs =>
    match item cs with
    | .error e => .error e
    | .ok (d, rest) =>
      match skipSpace rest rest with
      | some (']' :: rest) => .ok (.list (d :: acc).reverse, rest)
      | some (',' :: rest) =>
        match skipSpace rest rest with
        | some (']' :: rest) => .ok (.list (d :: acc).reverse, rest)
        | some rest => items item (d :: acc) fuel rest
        | none => .error .malformed
      | _ => .error .malformed

/-- An array after its opening bracket. -/
def array (item : List Char → ReadResult Datum) (cs : List Char) : ReadResult Datum :=
  match skipSpace cs cs with
  | some (']' :: rest) => .ok (.list [], rest)
  | some rest => items item [] cs rest
  | none => .error .malformed

/-- Whether a value is an array or a table. -/
def isContainer : Datum → Bool
  | .list _ => true
  | .table _ => true
  | _ => false

/-- The last part of a key with those before it. -/
def splitLast (k : Key) : Key × String := (k.dropLast, k.getLastD "")

/-- The members of an inline table of which at least one is due; `closed` are the keys to which
nothing may be added. The fuel is the text. -/
def members (item : List Char → ReadResult Datum) (t : Members) (closed : List Key) :
    (fuel cs : List Char) → ReadResult Datum
  | [], _ => .error .malformed
  | _ :: fuel, cs =>
    match keyValue item cs with
    | .error e => .error e
    | .ok ((k, d), rest) =>
      let (front, last) := splitLast k
      if closed.any fun c => c.isPrefixOf k then .error .malformed
      else
        match within false front (addNew last d) t with
        | none => .error .malformed
        | some t =>
          match skipGap rest with
          | '}' :: rest => .ok (.table t, rest)
          | ',' :: rest =>
            members item t (if isContainer d then k :: closed else closed) fuel (skipGap rest)
          | _ => .error .malformed

/-- An inline table after its opening brace. -/
def inlineTable (item : List Char → ReadResult Datum) (cs : List Char) : ReadResult Datum :=
  match skipGap cs with
  | '}' :: rest => .ok (.table [], rest)
  | rest => members item [] [] cs rest

/-- A value, for whose nesting there is so much room: an array takes up two units of it and an
inline table three. -/
def value : (room : Nat) → List Char → ReadResult Datum
  | room + 3, cs =>
    match cs with
    | '[' :: rest => array (value (room + 1)) rest
    | '{' :: rest => inlineTable (value room) rest
    | _ => scalar cs
  | 2, cs =>
    match cs with
    | '[' :: rest => array (value 0) rest
    | '{' :: _ => .error .tooDeep
    | _ => scalar cs
  | _, cs =>
    match cs with
    | '[' :: _ => .error .tooDeep
    | '{' :: _ => .error .tooDeep
    | _ => scalar cs

/-! ## Statements -/

/-- A document in the making: its tables, what is settled, and the header in force. -/
structure Draft where
  /-- The members of the document. -/
  root : Members
  /-- What is settled. -/
  ledger : Ledger
  /-- The table to which the next members belong. -/
  header : Key

/-- The keys of the tables that a dotted key of several parts passes through. -/
def passed (header key : Key) : List Key :=
  (List.range (key.length - 1)).map fun n => header ++ key.take (n + 1)

/-- Adds a member to the table in force. -/
def Draft.add? (d : Draft) (k : Key) (v : Datum) : Option Draft :=
  let tables := passed d.header k
  if tables.any d.ledger.isDeclared then none
  else
    let (front, last) := splitLast k
    if d.ledger.isClosed (d.header ++ front) then none
    else
      (within true (d.header ++ front) (addNew last v) d.root).map fun root =>
        { d with
          root := root
          ledger := { d.ledger with
            pending := tables ++ d.ledger.pending
            closed := if isContainer v then (d.header ++ k) :: d.ledger.closed
              else d.ledger.closed } }

/-- Declares a table. -/
def Draft.openTable? (d : Draft) (k : Key) : Option Draft :=
  let l := d.ledger.settle
  if l.isDeclared k || l.isClosed k then none
  else
    (within true k some d.root).map fun root =>
      ⟨root, { l with declared := k :: l.declared }, k⟩

/-- Adds a table to a list of tables. -/
def Draft.openItem? (d : Draft) (k : Key) : Option Draft :=
  let l := d.ledger.settle
  if l.isClosed k then none
  else
    let l := l.release k
    let (front, last) := splitLast k
    (within true front (appendTable last) d.root).map fun root =>
      ⟨root, { l with declared := k :: l.declared }, k⟩

/-- The draft after a header: what follows the key must be `close`. -/
def header (d? : Key → Option Draft) (close : List Char) (cs : List Char) : ReadResult Draft :=
  match key (skipGap cs) with
  | .error e => .error e
  | .ok (k, rest) =>
    match d? k, Text.after? close rest with
    | some d, some rest => .ok (d, rest)
    | _, _ => .error .malformed

/-- The draft after a statement, and the text after the blanks that follow it. A comment alone is a
statement that adds nothing. -/
def statement (d : Draft) (cs : List Char) : ReadResult Draft :=
  match cs with
  | '#' :: _ => .ok (d, cs)
  | '[' :: '[' :: rest => header d.openItem? [']', ']'] rest
  | '[' :: rest => header d.openTable? [']'] rest
  | _ =>
    match keyValue (value nestingRoom) cs with
    | .error e => .error e
    | .ok ((k, v), rest) =>
      match d.add? k v with
      | some d => .ok (d, rest)
      | none => .error .malformed

/-- The draft after all statements. The fuel is the text. -/
def statements (d : Draft) : (fuel cs : List Char) → Except ReadFault Draft
  | [], _ => .ok d
  | _ :: fuel, cs =>
    match skipGap cs with
    | [] => .ok d
    | '\n' :: rest => statements d fuel rest
    | cs =>
      match statement d cs with
      | .error e => .error e
      | .ok (d, rest) =>
        match skipComment? (skipGap rest) with
        | none => .error .malformed
        | some [] => .ok d
        | some ('\n' :: rest) => statements d fuel rest
        | some _ => .error .malformed

/-- A text with the carriage return before every line feed left out. -/
def unifyLines : List Char → List Char
  | '\r' :: '\n' :: rest => '\n' :: unifyLines rest
  | c :: rest => c :: unifyLines rest
  | [] => []

/-- The table that a document writes. -/
def parse (cs : List Char) : Except ReadFault Datum :=
  let cs := unifyLines cs
  (statements ⟨[], Ledger.empty, []⟩ cs cs).map fun d => .table d.root

end ProjectSurvey.Toml
