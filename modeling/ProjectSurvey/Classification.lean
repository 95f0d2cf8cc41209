import ProjectSurvey.FileRecord
import ProjectSurvey.Path
import ProjectSurvey.Pattern.Basic
import ProjectSurvey.Tables

/-!
# Classifying files

From a path and, for source files, the beginning of the content to a `FileKind`. The language comes
from the name alone: the full name first, then the lower-case suffix. The path decides most tags;
**a content sample can only add a framework hint and the tags `routing`, `database` and
`component`**. Classification never fails: a file of unknown language has no tags at all.
-/

namespace ProjectSurvey

open Pattern

/-! ## Signs of frameworks -/

/-- Either kind of quote. -/
def quoteMark : CharSet := CharSet.anyOf "'\""

/-- A framework, the languages it is written in and the sign of it in a text. -/
structure FrameworkMarker where
  /-- The hint that is given. -/
  hint : String
  /-- The languages in which the sign counts. -/
  languages : List String
  /-- The sign. -/
  sign : Pattern

/-- The keyword `from` and a quoted module of the given name. -/
def fromQuoted (name : String) : Pattern :=
  lit "from" ++ gap ++ char quoteMark ++ lit name ++ char quoteMark

/-- The frameworks in the order in which their signs are looked for. -/
def frameworkMarkers : List FrameworkMarker := [
  ⟨"next", ["javascript", "typescript"],
    (lit "from" ++ gap ++ char quoteMark ++ lit "next/") |||
      oneOf ["getServerSideProps", "getStaticProps"]⟩,
  ⟨"react", ["javascript", "typescript"],
    fromQuoted "react" ||| oneOf ["useState(", "useEffect(", "React."]⟩,
  ⟨"vue", ["javascript", "typescript", "vue"],
    fromQuoted "vue" ||| oneOf ["defineComponent(", "<template>"]⟩,
  ⟨"express", ["javascript", "typescript"],
    (lit "require(" ++ blanks ++ char quoteMark ++ lit "express" ++ char quoteMark ++ blanks ++
      lit ")") ||| fromQuoted "express" ||| lit "express.Router("⟩,
  ⟨"django", ["python"], oneOf ["from", "import"] ++ gap ++ lit "django" ++ wordEdge⟩,
  ⟨"flask", ["python"],
    (lit "from" ++ gap ++ lit "flask" ++ gap ++ lit "import") ||| lit "Flask(__name__)"⟩,
  ⟨"fastapi", ["python"],
    (lit "from" ++ gap ++ lit "fastapi" ++ gap ++ lit "import") ||| lit "FastAPI("⟩,
  ⟨"spring", ["java", "kotlin"],
    oneOf ["org.springframework", "@SpringBootApplication", "@RestController"]⟩,
  ⟨"laravel", ["php"], lit "Illuminate\\"⟩,
  ⟨"wordpress", ["php"], wordEdge ++ oneOf ["add_action(", "wp_enqueue_script("]⟩]

/-- The framework that a text of the given language hints at. -/
def frameworkHint (language : String) (sample : List Char) : Option String :=
  (frameworkMarkers.find? fun m =>
    m.languages.contains language && m.sign.occurs sample).map FrameworkMarker.hint

/-! ## Signs of purpose in a text -/

/-- The verbs under which a route is declared. -/
def routeVerbs : List String := ["get", "post", "put", "patch", "delete"]

/-- Code that declares routes. -/
def routingSign : Pattern :=
  (wordEdge ++ oneOf ["app", "router"] ++ lit "." ++ oneOf (routeVerbs ++ ["use"]) ++ lit "(") |||
  (lit "@" ++ oneOf ["app", "router"] ++ lit "." ++ oneOf (routeVerbs ++ ["route"]) ++ lit "(") |||
  (lit "urlpatterns" ++ blanks ++ lit "=")

/-- Code that talks to a database. -/
def databaseSign : Pattern :=
  (wordEdge ++ oneOf ["SELECT", "INSERT", "UPDATE", "DELETE"] ++ char CharSet.blank) |||
  oneOf ["mongoose.", "sequelize", ".query(", "cursor.execute("] |||
  (lit "models.Model" ++ wordEdge) ||| lit "prisma."

/-- Code that returns markup or exports a component. -/
def componentSign : Pattern :=
  (wordEdge ++ lit "return" ++ blanks ++ opt (lit "(") ++ blanks ++ lit "<" ++
    char CharSet.letter) |||
  (lit "export" ++ gap ++ lit "default" ++ gap ++ lit "function" ++ gap ++
    char (CharSet.span 'A' 'Z'))

/-! ## Signs of purpose in a path -/

/-- A final suffix: a dot and further characters that are no dots. -/
def finalSuffix : Pattern := lit "." ++ plus (CharSet.noneOf ".") ++ textEnd

/-- Names of test files. -/
def testName : Pattern :=
  (textStart ++ lit "test_" ++ many CharSet.inLine) |||
  (textStart ++ oneOf ["test", "tests", "spec"] ++ finalSuffix) |||
  (many CharSet.inLine ++ lit "_test" ++ finalSuffix) |||
  (many CharSet.inLine ++ lit "." ++ oneOf ["test", "spec"] ++ finalSuffix) |||
  (textStart ++ char (CharSet.span 'A' 'Z') ++ many CharSet.word ++ lit "Test" ++
    opt (lit "s") ++ lit "." ++ oneOf ["java", "kt", "cs", "scala", "swift"] ++ textEnd)

/-- Directories that hold tests. -/
def testDirectories : List String := ["test", "tests", "__tests__", "spec", "e2e"]

/-- The tags that directories give, in order. -/
def pathTags : List Labelled := [
  ⟨"routing", ["routes", "router", "routers", "api", "controllers", "pages"]⟩,
  ⟨"database", ["db", "database", "migrations", "repositories"]⟩,
  ⟨"component", ["components"]⟩,
  ⟨"model", ["models", "entities", "schemas"]⟩,
  ⟨"service", ["services"]⟩,
  ⟨"utility", ["utils", "helpers", "lib"]⟩]

/-- Names of configuration files. -/
def configNames : List String := [
  "package.json", "tsconfig.json", "pyproject.toml", "setup.cfg", "Cargo.toml", "go.mod",
  "composer.json", "Dockerfile", "Makefile"]

/-! ## The classification -/

/-- The language of a file by its path. -/
def languageOf (t : Tables) (path : String) : String :=
  let name := Path.name path
  let bySuffix :=
    (Assoc.get? (Text.lowered (Path.suffix name)) t.languageByExtension).getD "unknown"
  match Assoc.get? name t.languageByFilename with
  | some language => if language = "" then bySuffix else language
  | none => bySuffix

/-- The tags that the path of a file of a language gives, repetitions included. -/
def tagsOfPath (language path : String) : List String :=
  let name := Path.name path
  let directories := (Path.components path).dropLast.map Text.lowered
  let isTest := (testName.atStart? name.toList).isSome ||
    directories.any fun d => testDirectories.contains d
  let isConfig := configNames.contains name ||
    ["config", "settings"].contains (Text.lowered (Path.stem name)) ||
    Text.occursIn ".config." name.toList
  (if isTest then ["test"] else []) ++
  ((pathTags.filter fun tag => directories.any fun d => tag.names.contains d).map Labelled.label) ++
  (if isConfig then ["config"] else []) ++
  (if language = "markdown" ∨ language = "restructuredtext" then ["docs"] else []) ++
  (if language = "css" then ["style"] else [])

/-- The tags that a text of a language gives. -/
def tagsOfSample (language : String) (sample : List Char) : List String :=
  (if routingSign.occurs sample then ["routing"] else []) ++
  (if databaseSign.occurs sample then ["database"] else []) ++
  (if (language = "javascript" ∨ language = "typescript") ∧ componentSign.occurs sample = true
    then ["component"] else [])

/-- What a file is taken for, by its path and, if there is one, a sample of its content. -/
def classify (t : Tables) (path : String) (sample : Option (List Char)) : FileKind :=
  let language := languageOf t path
  if language = "unknown" then FileKind.unknown
  else
    match sample with
    | none => ⟨language, none, Text.distinct (tagsOfPath language path)⟩
    | some text =>
      if text.isEmpty then ⟨language, none, Text.distinct (tagsOfPath language path)⟩
      else ⟨language, frameworkHint language text,
        Text.distinct (tagsOfPath language path ++ tagsOfSample language text)⟩

end ProjectSurvey
