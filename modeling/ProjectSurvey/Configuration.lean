import ProjectSurvey.Disk.Access
import ProjectSurvey.Yaml.Document

/-!
# Configuration

What the configuration file of a project says, and the options that follow from it. The file is
lenient ground: **a setting of the wrong kind counts as not made**, and only a file that is no
mapping or breaks the rules of its format makes `Configuration.load` give up. `Options` are
complete; `Options.override?` puts the wishes of a caller above them.
-/

namespace ProjectSurvey

/-- What a configuration file says. -/
structure Configuration where
  /-- How deep to walk. -/
  maxDepth : Option Int
  /-- The greatest size of a file whose text is read. -/
  maxFileSize : Option Int
  /-- Directory names to pass over beside the usual ones. -/
  ignore : List String
  /-- Directory names to pass over instead of the usual ones. -/
  ignoreOnly : Option (List String)
  /-- Patterns of paths to pass over. -/
  excludePaths : List String
  /-- Whether the ignore file of the project counts. -/
  useGitignore : Option Bool
  /-- Whether evidence is kept from run to run. -/
  cache : Option Bool
  /-- Rules that are switched off. -/
  disabledRules : List String
  /-- The number of lines from which on a file is oversized. -/
  oversizedLines : Option Int
  /-- The directory for output. -/
  outputDirectory : String

namespace Configuration

/-- The name of the configuration file. -/
def fileName : String := ".devassist.yml"

/-- The usual directory for output. -/
def defaultOutput : String := ".devassist"

/-- A configuration that says nothing. -/
def empty : Configuration := ⟨none, none, [], none, [], none, none, [], none, defaultOutput⟩

/-- Why a configuration was not read. -/
inductive Fault where
  /-- The system refuses to give its text. -/
  | refused (f : AccessFault) (path : String)
  /-- Its text is no UTF-8. -/
  | undecodable (f : Text.Utf8.Fault)
  /-- Its text gives no value. -/
  | unread (f : Yaml.Fault)
  /-- Its value is no mapping. -/
  | noMapping
  /-- An integer that is to be taken as a text is too long. -/
  | unshowable
  deriving DecidableEq

/-- Whether the file itself is to blame, so that an analysis goes on without it. -/
def Fault.isForgiven : Fault → Bool
  | refused .. => true
  | unread .malformed => true
  | noMapping => true
  | _ => false

/-! ## Settings -/

/-- An integer, which may be written as a text. -/
def integer? : Option Yaml.Value → Option Int
  | some (.int n) => some n
  | some (.text s) => Text.integer? s.toList
  | _ => none

/-- A truth value, which may be written as a text. -/
def truth? : Option Yaml.Value → Option Bool
  | some (.bool b) => some b
  | some (.text s) =>
    let lowered := String.ofList (Text.lower (Text.strip s.toList))
    if ["true", "yes", "1"].contains lowered then some true
    else if ["false", "no", "0"].contains lowered then some false
    else none
  | _ => none

/-- A value that is neither nothing nor a container, as a text. -/
def text? : Yaml.Value → Except Fault (Option String)
  | .text s => .ok (some s)
  | .bool b => .ok (some (Datum.plain (.bool b)))
  | .real x => .ok (some (Datum.plain (.real x)))
  | .int n =>
    match (Datum.int n).shown? with
    | some s => .ok (some s)
    | none => .error .unshowable
  | _ => .ok none

/-- The texts of a list, values that are none left out; a text alone is a list of one, and octets
are a list of numbers. -/
def texts (d : Yaml.Document) (v : Option Yaml.Value) : Except Fault (List String) :=
  match v with
  | some (.text s) => .ok [s]
  | some (.octets bytes) => .ok (bytes.map fun b => String.ofList (Text.decimal b.toNat))
  | some v => do .ok ((← ((d.items? v).getD []).mapM text?).filterMap fun s => s)
  | none => .ok []

/-- The directory for output: a text or a number, not empty. -/
def output (v : Option Yaml.Value) : Except Fault String :=
  match v with
  | some (.bool _) => .ok defaultOutput
  | some v => do
    match ← text? v with
    | some "" => .ok defaultOutput
    | some s => .ok s
    | none => .ok defaultOutput
  | none => .ok defaultOutput

/-- The configuration that a mapping describes. -/
def ofDocument (d : Yaml.Document) : Except Fault Configuration := do
  let setting (part key : String) : Option Yaml.Value :=
    (d.get? d.root part).bind fun v => d.get? v key
  let ignore ← texts d (setting "analysis" "ignore")
  let ignoreOnly ← match setting "analysis" "ignore_override" with
    | some v => do pure (some (← texts d (some v)))
    | none => pure none
  let excludePaths ← texts d (setting "analysis" "exclude_paths")
  let disabledRules ← texts d (setting "rules" "disabled")
  let outputDirectory ← output (setting "output" "directory")
  .ok {
    maxDepth := integer? (setting "analysis" "max_depth")
    maxFileSize := integer? (setting "analysis" "max_file_size")
    ignore, ignoreOnly, excludePaths
    useGitignore := truth? (setting "analysis" "use_gitignore")
    cache := truth? (setting "analysis" "cache")
    disabledRules
    oversizedLines := integer? (setting "rules" "oversized_file_lines")
    outputDirectory }

/-- The configuration that a text describes; a value that counts as false describes none. -/
def ofText (cs : List Char) : Except Fault Configuration :=
  if (Text.strip cs).isEmpty then .ok empty
  else
    match Yaml.Document.ofText cs with
    | .error f => .error (.unread f)
    | .ok d =>
      if !d.truthy d.root then .ok empty
      else if d.isTable d.root then ofDocument d
      else .error .noMapping

/-! ## The file -/

/-- The path of the configuration file for a path: in that directory, or beside that file. -/
def filePath (disk : Entry) (path : String) : Except AccessFault String := do
  if ← disk.directoryAt path then .ok (Path.join path fileName)
  else if Path.name path = fileName then .ok path
  else .ok (Path.join (Location.text (Path.components path).dropLast) fileName)

/-- The configuration in the file at a location. -/
def ofFile (disk : Entry) (l : Location) : Except Fault Configuration :=
  match disk.readText l.text with
  | .error (.refused f) => .error (.refused f l.text)
  | .error (.undecodable f) => .error (.undecodable f)
  | .ok cs => ofText cs

end Configuration

/-! ## Options -/

/-- The options of an analysis. -/
structure Options where
  /-- How deep to walk. -/
  maxDepth : Int
  /-- The greatest size of a file whose text is read. -/
  maxFileSize : Int
  /-- Directory names to pass over. -/
  ignoreDirectories : List String
  /-- Patterns of paths to pass over. -/
  excludePaths : List String
  /-- Whether the ignore file of the project counts. -/
  useGitignore : Bool
  /-- Whether evidence is kept from run to run. -/
  cache : Bool
  /-- Rules that are switched off. -/
  disabledRules : List String
  /-- The number of lines from which on a file is oversized. -/
  oversizedLines : Int
  /-- The directory for output. -/
  outputDirectory : String
  deriving DecidableEq

/-- A setting that was put aside: its name, its value and the least value that counts. -/
structure OutOfRange where
  /-- The name of the setting. -/
  key : String
  /-- The value given. -/
  value : Int
  /-- The least value. -/
  minimum : Int
  deriving DecidableEq

/-- What a caller wishes beside the configuration. -/
structure Overrides where
  /-- How deep to walk. -/
  maxDepth : Option Int
  /-- Directory names to pass over beside the others. -/
  ignore : List String
  /-- Directory names to pass over instead of the others. -/
  ignoreOnly : Option (List String)
  /-- Whether evidence is kept from run to run. -/
  cache : Option Bool

namespace Overrides

/-- No wishes. -/
def none : Overrides := ⟨.none, [], .none, .none⟩

end Overrides

namespace Options

/-- The usual depth. -/
def defaultDepth : Int := 4

/-- The usual greatest size of a file whose text is read. -/
def defaultFileSize : Int := 1048576

/-- The usual number of lines from which on a file is oversized. -/
def defaultOversized : Int := 500

/-- The usual directory names to pass over. -/
def defaultIgnore : List String := [
  ".git", ".hg", ".svn", "node_modules", "bower_components", "vendor", "dist", "build", "out",
  "target", "coverage", ".nyc_output", ".next", ".nuxt", "__pycache__", ".pytest_cache",
  ".mypy_cache", ".tox", ".venv", "venv", ".idea", ".devassist"]

/-- The options without a configuration. -/
def default : Options :=
  ⟨defaultDepth, defaultFileSize, defaultIgnore, [], true, false, [], defaultOversized,
    Configuration.defaultOutput⟩

/-- A setting with its least and its usual value: the value in force, and what was put aside. -/
def atLeast (minimum : Int) (key : String) (value : Option Int) (usual : Int) :
    Int × List OutOfRange :=
  match value with
  | none => (usual, [])
  | some n => if n < minimum then (usual, [⟨key, n, minimum⟩]) else (n, [])

/-- The options that follow from a configuration, and the settings that were put aside. -/
def ofConfiguration (c : Configuration) : Options × List OutOfRange :=
  let (depth, asideDepth) := atLeast 1 "analysis.max_depth" c.maxDepth defaultDepth
  let (size, asideSize) := atLeast 0 "analysis.max_file_size" c.maxFileSize defaultFileSize
  let (lines, asideLines) :=
    atLeast 1 "rules.oversized_file_lines" c.oversizedLines defaultOversized
  ({ maxDepth := depth
     maxFileSize := size
     ignoreDirectories := Text.distinct (c.ignoreOnly.getD defaultIgnore ++ c.ignore)
     excludePaths := c.excludePaths
     useGitignore := c.useGitignore.getD true
     cache := c.cache.getD false
     disabledRules := Text.distinct c.disabledRules
     oversizedLines := lines
     outputDirectory := c.outputDirectory },
    asideDepth ++ asideSize ++ asideLines)

/-- The options with the wishes of a caller put above them; nothing if the depth wished for is less
than one. -/
def override? (o : Options) (w : Overrides) : Option Options :=
  if (w.maxDepth.getD 1) < 1 then none
  else some { o with
    maxDepth := w.maxDepth.getD o.maxDepth
    ignoreDirectories :=
      Text.distinct ((w.ignoreOnly.map Text.distinct).getD o.ignoreDirectories ++ w.ignore)
    cache := w.cache.getD o.cache }

end Options

end ProjectSurvey
