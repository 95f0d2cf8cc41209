import ProjectSurvey.Data.Datum

/-!
# Writing JSON

JSON texts of values, in two layouts. `pretty` is the layout of the files this library keeps:
two blanks per level, members sorted by name, one item per line; `compact` is one line in the
order of the table. **The output is ASCII**: every other character is written as code units.
Infinity and the undefined double are written as the words the reader takes.
-/

namespace ProjectSurvey.Json

/-- A code unit as an escape. -/
def unitEscape (u : Nat) : List Char := '\\' :: 'u' :: Text.hexadecimal 4 u

/-- One character inside a string. -/
def stringChar (c : Char) : List Char :=
  match c with
  | '"' => ['\\', '"']
  | '\\' => ['\\', '\\']
  | '\n' => ['\\', 'n']
  | '\r' => ['\\', 'r']
  | '\t' => ['\\', 't']
  | c =>
    let n := c.toNat
    if n = 8 then ['\\', 'b']
    else if n = 12 then ['\\', 'f']
    else if 32 ≤ n ∧ n < 127 then [c]
    else if n < 0x10000 then unitEscape n
    else
      let m := n - 0x10000
      unitEscape (0xd800 + m / 1024) ++ unitEscape (0xdc00 + m % 1024)

/-- A string in quotes. -/
def string (s : String) : List Char := '"' :: s.toList.flatMap stringChar ++ ['"']

/-- How doubles that are not finite are written. -/
def writtenReals : Binary64.Spelling := ⟨"Infinity", "NaN"⟩

/-- A value that is no container. A date is written as its plain text. -/
def scalarText : Datum → List Char
  | .null => "null".toList
  | .bool b => if b then "true".toList else "false".toList
  | .int n => Text.decimalInt n
  | .real x => x.text writtenReals
  | .text s => string s
  | .moment p _ => string p
  | _ => []

/-! ## One line -/

mutual

/-- A value on one line. -/
def compact : Datum → List Char
  | .list ds => '[' :: compactItems ds ++ [']']
  | .table kvs => '{' :: compactMembers kvs ++ ['}']
  | d => scalarText d

/-- The items of a list. -/
def compactItems : List Datum → List Char
  | [] => []
  | [d] => compact d
  | d :: e :: ds => compact d ++ ',' :: compactItems (e :: ds)

/-- The members of a table. -/
def compactMembers : List (String × Datum) → List Char
  | [] => []
  | [(k, d)] => string k ++ ':' :: compact d
  | (k, d) :: e :: kvs => string k ++ ':' :: compact d ++ ',' :: compactMembers (e :: kvs)

end

/-! ## Indented and sorted -/

/-- The members of a table in the order of their names. -/
def sortMembers {α : Type} (kvs : List (String × α)) : List (String × α) :=
  kvs.mergeSort fun a b => decide (a.1 ≤ b.1)

mutual

/-- The value with the members of every table sorted by name. -/
def sortKeys : Datum → Datum
  | .list ds => .list (sortItems ds)
  | .table kvs => .table (sortMembers (sortValues kvs))
  | d => d

/-- `sortKeys` on every item. -/
def sortItems : List Datum → List Datum
  | [] => []
  | d :: ds => sortKeys d :: sortItems ds

/-- `sortKeys` on every value. -/
def sortValues : List (String × Datum) → List (String × Datum)
  | [] => []
  | (k, d) :: kvs => (k, sortKeys d) :: sortValues kvs

end

/-- A line end and the indentation of a level in front of `behind`. -/
def newline (level : Nat) (behind : List Char) : List Char :=
  '\n' :: (List.replicate (2 * level) ' ' ++ behind)

mutual

/-- A value in lines in front of `behind`, its container standing at `level`. Each character is put
down once, however deeply containers nest. -/
def indented (level : Nat) : Datum → (behind : List Char) → List Char
  | .list [], behind => '[' :: ']' :: behind
  | .list (d :: ds), behind =>
    '[' :: newline (level + 1) (indentedItems (level + 1) (d :: ds) (newline level (']' :: behind)))
  | .table [], behind => '{' :: '}' :: behind
  | .table (kv :: kvs), behind =>
    '{' :: newline (level + 1)
      (indentedMembers (level + 1) (kv :: kvs) (newline level ('}' :: behind)))
  | d, behind => scalarText d ++ behind

/-- The items of a list in front of `behind`, one a line. -/
def indentedItems (level : Nat) : List Datum → (behind : List Char) → List Char
  | [], behind => behind
  | [d], behind => indented level d behind
  | d :: e :: ds, behind =>
    indented level d (',' :: newline level (indentedItems level (e :: ds) behind))

/-- The members of a table in front of `behind`, one a line. -/
def indentedMembers (level : Nat) : List (String × Datum) → (behind : List Char) → List Char
  | [], behind => behind
  | [(k, d)], behind => string k ++ ':' :: ' ' :: indented level d behind
  | (k, d) :: e :: kvs, behind =>
    string k ++ ':' :: ' ' ::
      indented level d (',' :: newline level (indentedMembers level (e :: kvs) behind))

end

/-- The text of a file that holds a value. -/
def pretty (d : Datum) : List Char := indented 0 (sortKeys d) []

end ProjectSurvey.Json
