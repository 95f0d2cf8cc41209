import ProjectSurvey.Number.Binary64
import ProjectSurvey.Number.Shortest
import ProjectSurvey.Pattern.Basic
import ProjectSurvey.Text.Lines

/-!
# Checks of a source text

One function per content rule: from a text to what was seen in it. The checks look for keywords and
shapes and do not parse; both kinds of error are to be expected. **Every check but the one on size
looks at a text through patterns alone**, and most of them are silent as soon as a second pattern
shows that the matter is taken care of. A line number is one plus the line feeds before the match.
-/

namespace ProjectSurvey

/-- Where and what a check saw, as far as it can tell. -/
structure Sighting where
  /-- What was seen, beyond the description of the rule. -/
  detail : Option String
  /-- The file. -/
  file : Option String
  /-- The line. -/
  line : Option Nat
  deriving DecidableEq

/-- What the check of a text comes to. -/
inductive Outcome where
  /-- Nothing was seen. -/
  | clear
  /-- Something was seen. -/
  | seen (s : Sighting)
  /-- The check broke down. -/
  | failed
  deriving DecidableEq

namespace Checks

open Pattern

/-- A sighting on the line on which a match starts. -/
def located (m : Match) (text : List Char) (detail : Option String) : Outcome :=
  .seen ⟨detail, none, some (m.line text)⟩

/-- A sighting of the first match of `sign`, unless `remedy` occurs too. -/
def seenWithout (sign remedy : Pattern) (detail : Match → Option String) (text : List Char) :
    Outcome :=
  match sign.find? text with
  | none => .clear
  | some m => if remedy.occurs text then .clear else located m text (detail m)

/-! ## Queries -/

/-- A keyword of a query. -/
def queryKeyword : Pattern :=
  wordEdge ++ oneOf ["SELECT", "INSERT", "UPDATE", "DELETE"] ++ wordEdge

/-- Characters inside a quoted text on one line. -/
def inQuotes : Pattern := many (CharSet.noneOf "\"'\n")

/-- An opening quote, remembered under a number. -/
def openQuote (n : Nat) : Pattern := group n (char (CharSet.anyOf "\"'"))

/-- Everything but a backtick. -/
def notBacktick : CharSet := CharSet.not (CharSet.only '`')

/-- A query pieced together from texts and values. -/
def queryConcatenation : Pattern :=
  (openQuote 1 ++ inQuotes ++ queryKeyword ++ inQuotes ++ again 1 ++ blanks ++ lit "+") |||
  (lit "+" ++ blanks ++ openQuote 2 ++ inQuotes ++ queryKeyword ++ inQuotes ++ again 2) |||
  (wordEdge ++ lit "f" ++ openQuote 3 ++ inQuotes ++ queryKeyword ++ inQuotes ++ lit "\x7b" ++
    stretch (CharSet.noneOf "\x7d") ++ lit "\x7d" ++ inQuotes ++ again 3) |||
  (char (CharSet.only '`') ++ many notBacktick ++ queryKeyword ++ many notBacktick ++
    lit "$\x7b" ++ many notBacktick ++ char (CharSet.only '`')) |||
  (openQuote 4 ++ inQuotes ++ queryKeyword ++ inQuotes ++ again 4 ++ blanks ++ lit ".format(")

/-- A query with places for its values. -/
def queryParameters : Pattern :=
  (wordEdge ++ oneOf ["prepare", "bind_param", "bindParam", "bindValue"] ++ blanks ++ lit "(") |||
  (queryKeyword ++ many (CharSet.and (CharSet.noneOf "\"'\n") notBacktick) ++
    (oneOf ["?", "%s"] ||| (lit "$" ++ char CharSet.digit) |||
      (lit ":" ++ char (CharSet.or CharSet.letter (CharSet.only '_')) ++ every CharSet.word)))

/-- Queries pieced together in a text that has no query with places. -/
def sqlInjection : List Char → Outcome :=
  seenWithout queryConcatenation queryParameters fun _ => none

/-! ## Input and markup -/

/-- Use of what a request brings. -/
def requestInput : Pattern :=
  (wordEdge ++ lit "req." ++ oneOf ["body", "params", "query"] ++ wordEdge) |||
  (wordEdge ++ lit "request." ++
    oneOf ["form", "args", "json", "values", "data", "GET", "POST", "get_json("]) |||
  (lit "$_" ++ oneOf ["GET", "POST", "REQUEST"] ++ wordEdge)

/-- Signs of validation. -/
def validation : Pattern :=
  firstOf [litAnyCase "validat", litAnyCase "sanitiz", litAnyCase "escape", litAnyCase "joi.",
    wordEdge ++ litAnyCase "zod" ++ wordEdge, wordEdge ++ litAnyCase "yup" ++ wordEdge,
    litAnyCase "basemodel", litAnyCase "schema(", litAnyCase "filter_input",
    litAnyCase "htmlspecialchars"]

/-- The text of a match without some characters at its end. -/
def trimmedText (drop : String) (m : Match) : Option String :=
  some (String.ofList (Text.trimRight (fun c => drop.toList.contains c) m.text))

/-- Use of request input in a text without validation. -/
def inputValidation : List Char → Outcome := seenWithout requestInput validation (trimmedText "(")

/-- Output that is taken as markup. -/
def markupOutput : Pattern :=
  (lit ".innerHTML" ++ blanks ++ lit "=") ||| (lit ".outerHTML" ++ blanks ++ lit "=") |||
  oneOf ["dangerouslySetInnerHTML", "document.write("] |||
  (wordEdge ++ lit "v-html" ++ wordEdge) ||| (lit "|" ++ blanks ++ lit "safe" ++ wordEdge) |||
  (wordEdge ++ lit "mark_safe(") ||| (wordEdge ++ lit "Markup(") |||
  (lit "echo" ++ gap ++ lit "$_" ++ oneOf ["GET", "POST", "REQUEST"])

/-- Signs of escaping. -/
def escaping : Pattern :=
  firstOf (["escape", "sanitiz", "dompurify", "htmlspecialchars", "bleach"].map litAnyCase)

/-- Output taken as markup in a text without escaping. -/
def xssPrevention : List Char → Outcome := seenWithout markupOutput escaping fun _ => none

/-! ## Secrets -/

/-- Two words with a hyphen, an underscore or nothing between them. -/
def joined (a b : String) : Pattern :=
  litAnyCase a ++ opt (char (CharSet.anyOf "_-")) ++ litAnyCase b

/-- A quoted value given to a name that sounds secret. -/
def secretAssignment : Pattern :=
  wordEdge ++
  firstOf [litAnyCase "password", litAnyCase "passwd", litAnyCase "pwd", litAnyCase "secret",
    joined "api" "key", litAnyCase "apikey", joined "access" "token", joined "auth" "token",
    joined "private" "key"] ++
  every CharSet.word ++ opt (char (CharSet.anyOf "\"'")) ++ blanks ++ char (CharSet.anyOf ":=") ++
  blanks ++ char (CharSet.anyOf "\"'") ++ group 1 (times 4 secretChar ++ every secretChar) ++
  char (CharSet.anyOf "\"'")
where
  /-- A character of a secret. -/
  secretChar : CharSet := CharSet.and (CharSet.noneOf "\"'") (CharSet.not CharSet.blank)

/-- An access key id of a cloud account. -/
def accessKeyId : Pattern :=
  wordEdge ++ lit "AKIA" ++ times 16 (CharSet.or (CharSet.span '0' '9') (CharSet.span 'A' 'Z')) ++
    wordEdge

/-- Values that are no secrets. -/
def placeholders : List String :=
  ["changeme", "password", "example", "xxxx", "your-api-key", "placeholder"]

/-- The first secret that is no placeholder, or an access key id. -/
def hardcodedSecret (text : List Char) : Outcome :=
  let real := (secretAssignment.findAll text).find? fun m =>
    !(placeholders.contains (String.ofList (Text.lower (m.groupText 1))))
  match real with
  | some m => located m text none
  | none =>
    match accessKeyId.find? text with
    | some m => located m text (some "AWS access key id")
    | none => .clear

/-! ## Execution and input/output -/

/-- Code or a command made while the program runs. -/
def dynamicExecution : Pattern :=
  (notAfter (CharSet.or (CharSet.only '.') CharSet.word) ++
    oneOf ["eval", "exec", "system", "shell_exec", "passthru", "popen"] ++ blanks ++ lit "(") |||
  (wordEdge ++ lit "new" ++ gap ++ lit "Function" ++ blanks ++ lit "(") |||
  (wordEdge ++ lit "os." ++ oneOf ["system", "popen"] ++ blanks ++ lit "(") |||
  (wordEdge ++ lit "subprocess." ++ stretch CharSet.word ++ lit "(" ++
    many (CharSet.noneOf ")\n") ++ lit "shell" ++ blanks ++ lit "=" ++ blanks ++ lit "True") |||
  (wordEdge ++ lit "child_process" ++ wordEdge ++ many (CharSet.noneOf "\n") ++ wordEdge ++
    lit "exec(")

/-- Execution of code made while the program runs. -/
def codeInjection (text : List Char) : Outcome :=
  match dynamicExecution.find? text with
  | none => .clear
  | some m => located m text (some (String.ofList (Text.strip m.text)))

/-- A call that blocks on the file system. -/
def blockingCall : Pattern :=
  wordEdge ++ lit "fs." ++
    oneOf ["readFileSync", "writeFileSync", "appendFileSync", "readdirSync", "statSync",
      "existsSync", "mkdirSync"] ++ blanks ++ lit "("

/-- Keywords of asynchronous code. -/
def asyncKeyword : Pattern :=
  (wordEdge ++ lit "async" ++ wordEdge) ||| (wordEdge ++ lit "await" ++ wordEdge)

/-- Code that serves requests or runs asynchronously. -/
def hotPath : Pattern :=
  (wordEdge ++ oneOf ["app", "router"] ++ lit "." ++
    oneOf ["get", "post", "put", "patch", "delete", "use", "all"] ++ blanks ++ lit "(") |||
  asyncKeyword ||| lit "createServer("

/-- Blocking calls in a text that serves requests. -/
def syncIo (text : List Char) : Outcome :=
  match blockingCall.find? text with
  | none => .clear
  | some m => if hotPath.occurs text then located m text (trimmedText "( " m) else .clear

/-- A handler of errors. -/
def errorHandler : Pattern :=
  (wordEdge ++ lit "try" ++ wordEdge ++ manyShort CharSet.all ++ wordEdge ++
    oneOf ["catch", "except"] ++ wordEdge) ||| lit ".catch("

/-- Asynchronous code in a text without a handler of errors. -/
def errorHandling : List Char → Outcome := seenWithout asyncKeyword errorHandler fun _ => none

/-! ## Size -/

/-- A function that is declared. -/
def functionDeclaration : Pattern :=
  (wordEdge ++ lit "function" ++ gap ++ stretch CharSet.word) |||
  (wordEdge ++ oneOf ["const", "let", "var"] ++ gap ++ stretch CharSet.word ++ blanks ++ lit "=" ++
    blanks ++ opt (lit "async" ++ blanks) ++ lit "(" ++ every (CharSet.noneOf ")") ++ lit ")" ++
    blanks ++ lit "=>") |||
  (lineStart ++ blanks ++ opt (lit "async" ++ gap) ++ lit "def" ++ gap ++ stretch CharSet.word)

/-- A place where the course of a function branches. -/
def branch : Pattern :=
  (wordEdge ++ oneOf ["if", "else", "elif", "for", "while", "switch", "case", "catch", "except"] ++
    wordEdge) ||| oneOf ["&&", "||"] ||| (wordEdge ++ lit "and" ++ wordEdge) |||
  (wordEdge ++ lit "or" ++ wordEdge)

/-- The average number of branches that a function may have. -/
def branchLimit : Nat := 10

/-- Functions that branch too often on average. -/
def functionComplexity (text : List Char) : Outcome :=
  let functions := functionDeclaration.count text
  let branches := branch.count text
  if functions = 0 ∨ branches ≤ branchLimit * functions then .clear
  else
    let tenths := ((Binary64.ofRatio false branches functions).roundedUnits? 1).getD 0
    .seen ⟨some (String.ofList ("average ".toList ++ Binary64.fixedText 1 tenths ++
      " branches per function".toList)), none, none⟩

/-- A text of more lines than allowed; the line reported is the last one. -/
def oversizedFile (limit : Int) (text : List Char) : Outcome :=
  let count := Text.lineCount text
  if (count : Int) ≤ limit then .clear
  else .seen ⟨some (String.ofList (Text.decimal count ++ " lines (limit ".toList ++
    Text.decimalInt limit ++ [')'])), none, some count⟩

end Checks

end ProjectSurvey
