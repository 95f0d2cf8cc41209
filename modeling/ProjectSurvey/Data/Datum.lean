import ProjectSurvey.Data.Assoc
import ProjectSurvey.Number.Shortest
import ProjectSurvey.Text.Classes

/-!
# Values of data files

What the readers of data formats produce: nothing, truth values, integers, doubles, texts, dates,
lists and tables with text keys. `Datum.plain` writes a value the way it is shown when it stands
where a text is expected, `Datum.literal` the way it is shown inside a list or a table. **A text
is shown bare on its own and in quotes inside a container**; all other values look the same in both
places, dates excepted.
-/

namespace ProjectSurvey

/-- A value read from a data file. -/
inductive Datum where
  /-- No value. -/
  | null
  /-- A truth value. -/
  | bool (b : Bool)
  /-- An integer of any size. -/
  | int (n : Int)
  /-- A double. -/
  | real (x : Binary64)
  /-- A text. -/
  | text (s : String)
  /-- A date or time, with its two ways of being shown. -/
  | moment (plain literal : String)
  /-- A list. -/
  | list (items : List Datum)
  /-- A table. -/
  | table (members : List (String × Datum))
  deriving Inhabited

/-! ## Quoted texts -/

namespace Text

/-- One character of a quoted text, given the quote in use. -/
def quotedChar (quote c : Char) : List Char :=
  if c = quote ∨ c = '\\' then ['\\', c]
  else if c = '\n' then ['\\', 'n']
  else if c = '\r' then ['\\', 'r']
  else if c = '\t' then ['\\', 't']
  else if isPrintable c then [c]
  else if c.toNat < 256 then '\\' :: 'x' :: hexadecimal 2 c.toNat
  else if c.toNat < 65536 then '\\' :: 'u' :: hexadecimal 4 c.toNat
  else '\\' :: 'U' :: hexadecimal 8 c.toNat

/-- A text in single quotes, or in double quotes if it has single ones and no double ones. -/
def quoted (cs : List Char) : List Char :=
  let quote := if cs.contains '\'' && !(cs.contains '"') then '"' else '\''
  quote :: cs.flatMap (quotedChar quote) ++ [quote]

end Text

namespace Datum

/-- How doubles that are not finite are shown. -/
def shownReals : Binary64.Spelling := ⟨"inf", "nan"⟩

mutual

/-- A value as it is shown inside a container. -/
def literal : Datum → List Char
  | null => "None".toList
  | bool b => if b then "True".toList else "False".toList
  | int n => Text.decimalInt n
  | real x => x.text shownReals
  | text s => Text.quoted s.toList
  | moment _ l => l.toList
  | list items => '[' :: literalItems items ++ [']']
  | table members => '{' :: literalMembers members ++ ['}']

/-- The members of a list, separated. -/
def literalItems : List Datum → List Char
  | [] => []
  | [d] => literal d
  | d :: e :: ds => literal d ++ ", ".toList ++ literalItems (e :: ds)

/-- The members of a table, separated. -/
def literalMembers : List (String × Datum) → List Char
  | [] => []
  | [(k, d)] => Text.quoted k.toList ++ ": ".toList ++ literal d
  | (k, d) :: e :: ds =>
    Text.quoted k.toList ++ ": ".toList ++ literal d ++ ", ".toList ++ literalMembers (e :: ds)

end

/-- A value as it is shown where a text is expected. -/
def plain : Datum → String
  | text s => s
  | moment p _ => p
  | d => String.ofList (literal d)

/-- The least number that is too long to be shown. -/
def shownBelow : Nat := 10 ^ Text.digitLimit

mutual

/-- Whether no integer in a value has more than `Text.digitLimit` digits. -/
def isShowable : Datum → Bool
  | int n => n.natAbs < shownBelow
  | list items => areShowable items
  | table members => membersAreShowable members
  | _ => true

/-- `isShowable` of every item. -/
def areShowable : List Datum → Bool
  | [] => true
  | d :: ds => isShowable d && areShowable ds

/-- `isShowable` of every member. -/
def membersAreShowable : List (String × Datum) → Bool
  | [] => true
  | (_, d) :: ms => isShowable d && membersAreShowable ms

end

/-- A value as it is shown where a text is expected, if it can be shown. -/
def shown? (d : Datum) : Option String := if d.isShowable then some d.plain else none

mutual

/-- How deeply containers nest in a value. -/
def depth : Datum → Nat
  | list items => depthOf items + 1
  | table members => depthOfMembers members + 1
  | _ => 0

/-- The greatest `depth` among items. -/
def depthOf : List Datum → Nat
  | [] => 0
  | d :: ds => max (depth d) (depthOf ds)

/-- The greatest `depth` among members. -/
def depthOfMembers : List (String × Datum) → Nat
  | [] => 0
  | (_, d) :: ms => max (depth d) (depthOfMembers ms)

end

/-- Whether a value counts as true: it is neither nothing, nor zero, nor empty. -/
def truthy : Datum → Bool
  | null => false
  | bool b => b
  | int n => n ≠ 0
  | real x => !x.isZero
  | text s => !s.isEmpty
  | moment .. => true
  | list items => !items.isEmpty
  | table members => !members.isEmpty

/-- Whether a value equals an integer, truth values counting as zero and one. -/
def equalsInt (d : Datum) (n : Int) : Bool :=
  match d with
  | int m => m == n
  | bool b => (if b then 1 else 0) == n
  | real x => x.toInt? == some n
  | _ => false

/-- Whether a value is the given text. -/
def equalsText (d : Datum) (s : String) : Bool :=
  match d with
  | text t => t == s
  | _ => false

/-- The member of a table under a key; `none` for other values too. -/
def get? (key : String) : Datum → Option Datum
  | table members => Assoc.get? key members
  | _ => none

/-- The text, if the value is one. -/
def text? : Datum → Option String
  | text s => some s
  | _ => none

/-- Whether a value is a text. -/
def isText (d : Datum) : Bool := d.text?.isSome

/-- Whether a value is nothing. -/
def isNull : Datum → Bool
  | null => true
  | _ => false

/-- The members, if the value is a list. -/
def list? : Datum → Option (List Datum)
  | list items => some items
  | _ => none

/-- The members, if the value is a table. -/
def table? : Datum → Option (List (String × Datum))
  | table members => some members
  | _ => none

/-- A list of texts. -/
def texts (ss : List String) : Datum := list (ss.map text)

/-- A text or nothing. -/
def ofText? : Option String → Datum
  | some s => text s
  | none => null

/-- A natural number. -/
def nat (n : Nat) : Datum := int n

/-- A natural number or nothing. -/
def ofNat? : Option Nat → Datum
  | some n => nat n
  | none => null

/-- Whether a value holds others. -/
def isContainer : Datum → Bool
  | list _ | table _ => true
  | _ => false

end Datum

end ProjectSurvey
