import ProjectSurvey.Pattern.Basic

/-!
# References and exports in source text

Which modules a source text refers to and which names it exports, found by patterns. References
come in the order of the text and exports grouped by the way they are declared; **both are free of
repetition**. A language without patterns has neither. A reference that starts with a dot or a slash
is a path; every other one names a module or a package.
-/

namespace ProjectSurvey.Reference

open Pattern

/-- Either kind of quote. -/
def quote : Pattern := char (CharSet.anyOf "'\"")

/-- A quoted text on one line, remembered under a number. -/
def quotedText (n : Nat) : Pattern :=
  quote ++ group n (stretch (CharSet.noneOf "'\"\n")) ++ quote

/-- The members of a match of `p` at all places: the text of group `n`. -/
def groupsOf (p : Pattern) (n : Nat) (text : List Char) : List String :=
  (p.findAll text).map fun m => String.ofList (m.groupText n)

/-- Languages that share the syntax of scripts. -/
def scriptLanguages : List String := ["javascript", "typescript", "vue", "svelte"]

/-! ## Scripts -/

/-- An import, a re-export or a call that loads a module. -/
def scriptReference : Pattern :=
  (lit "import" ++ plus CharSet.blank ++
    opt (char (CharSet.noneOf "'\";") ++ manyShort (CharSet.noneOf "'\";") ++ gap ++ lit "from" ++
      gap) ++ quotedText 1) |||
  (lit "export" ++ gap ++ (lit "*" ||| (lit "\x7b" ++ every (CharSet.noneOf "\x7d") ++
      lit "\x7d")) ++
    opt (gap ++ lit "as" ++ gap ++ stretch CharSet.word) ++ gap ++ lit "from" ++ gap ++
    quotedText 2) |||
  (lit "require(" ++ blanks ++ quotedText 3 ++ blanks ++ lit ")") |||
  (lit "import(" ++ blanks ++ quotedText 4 ++ blanks ++ lit ")")

/-- The modules that a script refers to. -/
def ofScript (text : List Char) : List String :=
  (scriptReference.findAll text).map fun m => String.ofList (m.firstGroup [1, 2, 3, 4])

/-! ## Indented modules

Imports of a language whose modules are dotted names, and whose relative imports count the levels
to go up by dots. -/

/-- Word characters and dots. -/
def dottedName : CharSet := CharSet.or CharSet.word (CharSet.only '.')

/-- An import of names from a module. The blanks behind a keyword may be given back: the name of the
module may be empty, and the names may begin with blanks. -/
def fromImport : Pattern :=
  lineStart ++ blanks ++ lit "from" ++ plus CharSet.blank ++ group 1 (every (CharSet.only '.')) ++
    group 2 (every dottedName) ++ gap ++ lit "import" ++ plus CharSet.blank ++
    group 3 ((lit "(" ++ every (CharSet.noneOf ")") ++ lit ")") |||
      stretch (CharSet.or CharSet.word (CharSet.anyOf " \t,*")))

/-- A module with the name it is to have, if that is given. -/
def namedModule : Pattern :=
  stretch dottedName ++ opt (gap ++ lit "as" ++ gap ++ stretch CharSet.word)

/-- An import of modules. -/
def plainImport : Pattern :=
  lineStart ++ blanks ++ lit "import" ++ gap ++
    group 1 (namedModule ++ rounds (blanks ++ lit "," ++ blanks ++ namedModule))

/-- What stands before the first ` as `, without blanks around it. -/
def beforeAlias (item : List Char) : List Char := Text.strip (Text.before " as " item)

/-- What a relative import goes up by. -/
def upward (dots : Nat) : String :=
  if dots = 1 then "./" else String.ofList ((List.replicate (dots - 1) "../".toList).flatten)

/-- The names of an import list. -/
def importedNames (list : List Char) : List String :=
  let bare := Text.trim (fun c => "() \t\n".toList.contains c) list
  ((Text.pieces ',' bare).map fun item => String.ofList (beforeAlias item)).filter
    fun name => name ≠ "" && name ≠ "*"

/-- The references of one import of names. -/
def ofFromImport (m : Match) : List String :=
  let dots := (m.groupText 1).length
  let moduleName := m.groupText 2
  if dots = 0 then [String.ofList moduleName]
  else if moduleName.isEmpty then (importedNames (m.groupText 3)).map (upward dots ++ ·)
  else [upward dots ++ String.ofList (Text.replaceChar '.' ['/'] moduleName)]

/-- The references of one import of modules. -/
def ofPlainImport (m : Match) : List String :=
  ((Text.pieces ',' (m.groupText 1)).map fun item => String.ofList (beforeAlias item)).filter
    (· ≠ "")

/-- The modules that an indented module refers to, in the order in which the imports start. -/
def ofIndented (text : List Char) : List String :=
  let located (p : Pattern) (references : Match → List String) : List (Nat × String) :=
    (p.findAll text).flatMap fun m => (references m).map fun r => (m.start.offset, r)
  let found := located fromImport ofFromImport ++ located plainImport ofPlainImport
  (found.mergeSort fun a b => a.1 ≤ b.1).map Prod.snd

/-! ## Other languages -/

/-- A reference taken as a path: one that does not start with a dot or a slash is looked for
next to the file. -/
def asPath (reference : String) : String :=
  match reference.toList with
  | '.' :: _ => reference
  | '/' :: _ => reference
  | _ => "./" ++ reference

/-- A statement that includes a page. -/
def pageReference : Pattern :=
  wordEdge ++ oneOf ["require", "include"] ++ opt (lit "_once") ++ blanks ++ opt (lit "(") ++
    blanks ++ quotedText 1

/-- An include directive with a quoted header. -/
def headerReference : Pattern :=
  lineStart ++ blanks ++ lit "#" ++ blanks ++ lit "include" ++ gap ++ lit "\"" ++
    group 1 (stretch (CharSet.noneOf "\"\n")) ++ lit "\""

/-- A statement that requires a file, or one relative to its own place. -/
def gemReference : Pattern :=
  lineStart ++ blanks ++ lit "require" ++ opt (group 1 (lit "_relative")) ++ blanks ++
    opt (lit "(") ++ blanks ++ quotedText 2

/-- The reference of one requiring statement. -/
def ofGemReference (m : Match) : String :=
  let target := String.ofList (m.groupText 2)
  if (m.group? 1).isSome then asPath target else target

/-- All references of a text in its order, repetitions included. -/
def all (language : String) (text : List Char) : List String :=
  if scriptLanguages.contains language then ofScript text
  else if language = "python" then ofIndented text
  else if language = "php" then groupsOf pageReference 1 text
  else if language = "c" ∨ language = "cpp" then (groupsOf headerReference 1 text).map asPath
  else if language = "ruby" then (gemReference.findAll text).map ofGemReference
  else []

/-- The references of a text, each once. -/
def extract (language : String) (text : List Char) : List String :=
  Text.distinct (all language text)

/-! ## Exports -/

/-- A name of a script. -/
def scriptName : Pattern :=
  char (CharSet.or CharSet.letter (CharSet.anyOf "_$")) ++
    every (CharSet.or CharSet.word (CharSet.only '$'))

/-- A default export with a name. -/
def defaultExport : Pattern :=
  lit "export" ++ gap ++ lit "default" ++ gap ++ opt (lit "async" ++ gap) ++
    opt ((lit "function" ++ opt (lit "*")) ||| lit "class") ++ blanks ++ group 1 scriptName

/-- An exported declaration. -/
def namedExport : Pattern :=
  lit "export" ++ gap ++ opt (lit "async" ++ gap) ++
    ((lit "function" ++ opt (lit "*")) |||
      oneOf ["class", "const", "let", "var", "interface", "type", "enum"]) ++ gap ++
    group 1 scriptName

/-- A list of exported names. -/
def exportList : Pattern :=
  lit "export" ++ blanks ++ lit "\x7b" ++ group 1 (stretch (CharSet.noneOf "\x7d")) ++ lit "\x7d"

/-- An assignment to the object of exports. -/
def assignedExport : Pattern :=
  wordEdge ++ lit "exports." ++ group 1 scriptName ++ blanks ++ lit "="

/-- What stands after the last ` as `, without blanks around it. -/
def afterAlias (item : List Char) : List Char :=
  Text.strip ((Text.piecesOn " as ".toList item).getLastD [])

/-- The names of a list of exports. -/
def listedNames (list : List Char) : List String :=
  ((Text.pieces ',' list).map fun item => String.ofList (afterAlias item)).filter (· ≠ "")

/-- The declaration of what an indented module exports. -/
def declaredExports : Pattern :=
  lineStart ++ lit "__all__" ++ blanks ++ lit "=" ++ blanks ++ char (CharSet.anyOf "[(") ++
    group 1 (every (CharSet.noneOf "])")) ++ char (CharSet.anyOf "])")

/-- A quoted name. -/
def quotedName : Pattern := quote ++ group 1 (stretch (CharSet.noneOf "'\"")) ++ quote

/-- A function or class at the margin. -/
def topLevel : Pattern :=
  lineStart ++ opt (lit "async" ++ gap) ++ oneOf ["def", "class"] ++ gap ++
    group 1 (char CharSet.letter ++ every CharSet.word)

/-- A declaration on a page. -/
def pageDeclaration : Pattern :=
  lineStart ++ blanks ++ opt (oneOf ["final", "abstract"] ++ gap) ++
    oneOf ["class", "interface", "trait", "function"] ++ gap ++ group 1 (stretch CharSet.word)

/-- The names that a text exports, each once. -/
def exports (language : String) (text : List Char) : List String :=
  Text.distinct <|
    if scriptLanguages.contains language then
      groupsOf defaultExport 1 text ++ groupsOf namedExport 1 text ++
        (exportList.findAll text).flatMap (fun m => listedNames (m.groupText 1)) ++
        groupsOf assignedExport 1 text
    else if language = "python" then
      match declaredExports.find? text with
      | some m => groupsOf quotedName 1 (m.groupText 1)
      | none => groupsOf topLevel 1 text
    else if language = "php" then groupsOf pageDeclaration 1 text
    else []

end ProjectSurvey.Reference
