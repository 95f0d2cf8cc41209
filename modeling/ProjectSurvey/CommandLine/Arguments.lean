import ProjectSurvey.Text.Classes

/-!
# Arguments of a command line

Reading a list of words as options and at most one operand. **A word is an option by its look, not
by its place**: it starts with a dash and is neither a dash alone nor a negative number. A long
option may be shortened as long as one option remains, short flags may be written together, and
after two dashes no word is an option. What is read is the list of options in order and the operand;
anything left over makes the whole a misuse.
-/

namespace ProjectSurvey.CommandLine

/-- What an option is for. -/
inductive OptionKind where
  /-- It is there or not. -/
  | flag
  /-- It has a value. -/
  | valued
  /-- It has a value that must be an integer. -/
  | integer
  /-- It asks for help. -/
  | help
  deriving DecidableEq

/-- Whether an option has a value. -/
def OptionKind.hasValue : OptionKind → Bool
  | valued => true
  | integer => true
  | _ => false

/-- An option. -/
structure OptionSpec where
  /-- The ways in which it is written, the last one being its name. -/
  spellings : List String
  /-- What it is for. -/
  kind : OptionKind
  deriving DecidableEq

namespace OptionSpec

/-- The name of an option. -/
def name (o : OptionSpec) : String := o.spellings.getLastD ""

end OptionSpec

/-- How a command is not used as it is meant. -/
inductive Misuse where
  /-- The words are wrong. -/
  | wrongUse
  /-- Help is asked for. -/
  | helpAsked
  deriving DecidableEq

/-- A word by its look. -/
inductive Word where
  /-- The sign behind which no word is an option. -/
  | divider
  /-- An operand, or the value of an option. -/
  | operand (text : String)
  /-- An option as it is spelled out, with what is attached to it. -/
  | option (spec : OptionSpec) (spelling : String) (attached : Option String)
  /-- An option that is not known. -/
  | stranger
  deriving DecidableEq

/-! ## The look of words -/

/-- Whether a word is a negative number. -/
def isNegativeNumber (cs : List Char) : Bool :=
  match cs with
  | '-' :: cs =>
    let cs := if cs.getLast? == some '\n' then cs.dropLast else cs
    let rest := cs.dropWhile Text.isDecimal
    match rest with
    | [] => !cs.isEmpty
    | '.' :: part => !part.isEmpty && part.all Text.isDecimal
    | _ => false
  | _ => false

/-- The option of a spelling. -/
def optionOf? (specs : List OptionSpec) (spelling : String) : Option OptionSpec :=
  specs.find? fun o => o.spellings.contains spelling

/-- A word before and behind its first equals sign. -/
def atEquals? (word : String) : Option (String × String) :=
  let cs := word.toList
  let front := cs.takeWhile (· ≠ '=')
  if front.length = cs.length then none
  else some (String.ofList front, String.ofList (cs.drop (front.length + 1)))

/-- The options that a long word may stand for, with their spellings and the attached value. -/
def longCandidates (specs : List OptionSpec) (word : String) :
    List (OptionSpec × String × Option String) :=
  let (front, attached) := match atEquals? word with
    | some (front, value) => (front, some value)
    | none => (word, none)
  specs.flatMap fun o =>
    (o.spellings.filter fun s => front.toList.isPrefixOf s.toList).map fun s => (o, s, attached)

/-- The options that a word with one dash may stand for: the one of its first letter, the rest being
attached, and those it shortens. -/
def shortCandidates (specs : List OptionSpec) (word : String) :
    List (OptionSpec × String × Option String) :=
  let letter := String.ofList (word.toList.take 2)
  specs.flatMap fun o => o.spellings.filterMap fun s =>
    if s = letter then some (o, s, some (String.ofList (word.toList.drop 2)))
    else if word.toList.isPrefixOf s.toList then some (o, s, none)
    else none

/-- The options that a word may stand for without being the spelling of one. -/
def candidates (specs : List OptionSpec) (word : String) :
    List (OptionSpec × String × Option String) :=
  match word.toList with
  | '-' :: '-' :: _ => longCandidates specs word
  | _ => shortCandidates specs word

/-- A word that starts with a dash and is the spelling of no option, by its look. -/
def lookOfOther (specs : List OptionSpec) (word : String) : Except Misuse Word :=
  match candidates specs word with
  | [(o, spelling, attached)] => .ok (.option o spelling attached)
  | [] =>
    if isNegativeNumber word.toList || word.toList.contains ' ' then .ok (.operand word)
    else .ok .stranger
  | _ => .error .wrongUse

/-- A word by its look. -/
def look (specs : List OptionSpec) (word : String) : Except Misuse Word :=
  match word.toList with
  | ['-'] => .ok (.operand word)
  | '-' :: _ =>
    match optionOf? specs word with
    | some o => .ok (.option o word none)
    | none =>
      match atEquals? word with
      | some (front, value) =>
        match optionOf? specs front with
        | some o => .ok (.option o front (some value))
        | none => lookOfOther specs word
      | none => lookOfOther specs word
  | _ => .ok (.operand word)

/-- The words of a line by their looks; behind two dashes all are operands. -/
def looks (specs : List OptionSpec) : List String → Except Misuse (List Word)
  | [] => .ok []
  | "--" :: rest => .ok (.divider :: rest.map .operand)
  | word :: rest => do .ok ((← look specs word) :: (← looks specs rest))

/-! ## Reading -/

/-- What was read. -/
structure Arguments where
  /-- The options in order, with their values. -/
  options : List (String × Option String)
  /-- The operand; `some none` is an operand of which only the divider is there. -/
  operand : Option (Option String)
  /-- Whether words are left over. -/
  leftOver : Bool

namespace Arguments

/-- Nothing read. -/
def empty : Arguments := ⟨[], none, false⟩

/-- Whether a flag is set. -/
def has (a : Arguments) (name : String) : Bool := a.options.any fun (n, _) => n == name

/-- The values of an option in order. -/
def values (a : Arguments) (name : String) : List String :=
  a.options.filterMap fun (n, v) => if n = name then v else none

/-- The last value of an option. -/
def value? (a : Arguments) (name : String) : Option String := (a.values name).getLast?

/-- Whether a value suits an option. -/
def suits (o : OptionSpec) (value : Option String) : Bool :=
  match o.kind, value with
  | .integer, some v => (Text.integer? v.toList).isSome
  | _, _ => true

/-- One more option. -/
def add (a : Arguments) (o : OptionSpec) (value : Option String) : Except Misuse Arguments :=
  if o.kind = .help then .error .helpAsked
  else if suits o value then .ok { a with options := a.options ++ [(o.name, value)] }
  else .error .wrongUse

/-- The flags that letters stand for, each of which must be one. -/
def flagsOf (specs : List OptionSpec) : List Char → Except Misuse (List OptionSpec)
  | [] => .ok []
  | c :: rest =>
    match optionOf? specs (String.ofList ['-', c]) with
    | none => .error .wrongUse
    | some o => if o.kind.hasValue then .error .wrongUse else do .ok (o :: (← flagsOf specs rest))

/-- A flag with letters attached, which are flags as well: only short flags are written together, be
it with an equals sign behind the first one. -/
def addTogether (specs : List OptionSpec) (a : Arguments) (o : OptionSpec)
    (spelling attached : String) : Except Misuse Arguments :=
  if attached.isEmpty ∨ "--".toList.isPrefixOf spelling.toList then .error .wrongUse
  else do (o :: (← flagsOf specs attached.toList)).foldlM (fun a o => a.add o none) a

/-- Takes an operand, or counts it as left over if there is no place for it. -/
def put (a : Arguments) (hasPlace : Bool) (operand : Option String) : Arguments :=
  if hasPlace && a.operand.isNone then { a with operand := some operand }
  else { a with leftOver := true }

/-- Reads words; `hasPlace` is whether there is a place for an operand. A divider goes with the
operand behind it or in front of it. -/
def read (specs : List OptionSpec) (hasPlace : Bool) (a : Arguments) :
    List Word → Except Misuse Arguments
  | [] => .ok a
  | .stranger :: rest => read specs hasPlace { a with leftOver := true } rest
  | .option o spelling (some attached) :: rest =>
    if o.kind.hasValue then do read specs hasPlace (← a.add o (some attached)) rest
    else do read specs hasPlace (← addTogether specs a o spelling attached) rest
  | .option o _ none :: rest =>
    if o.kind.hasValue then
      match rest with
      | .operand v :: rest => do read specs hasPlace (← a.add o (some v)) rest
      | _ => .error .wrongUse
    else do read specs hasPlace (← a.add o none) rest
  | .divider :: .operand v :: rest => read specs hasPlace (a.put hasPlace (some v)) rest
  | .divider :: rest => read specs hasPlace (a.put hasPlace none) rest
  | .operand v :: .divider :: rest =>
    if hasPlace && a.operand.isNone then read specs hasPlace (a.put hasPlace (some v)) rest
    else read specs hasPlace { a with leftOver := true } (.divider :: rest)
  | .operand v :: rest => read specs hasPlace (a.put hasPlace (some v)) rest

end Arguments

end ProjectSurvey.CommandLine
