import ProjectSurvey.Graph.Network
import ProjectSurvey.Snapshot
import ProjectSurvey.Text.Blank
import ProjectSurvey.Text.Lower

/-!
# Documents

The three documents that describe a project: a report, its architecture, and where to put effort.
**Every document is a list of lines made from a snapshot**; blank characters at both ends are taken
off the whole and one line end is put behind it. A template of the same name goes before a document
of this library; all that is filled in there is the name of the project.
-/

namespace ProjectSurvey

namespace Snapshot

/-- The files of the graph and the references between them. -/
def network (s : Snapshot) : Network :=
  let links := s.edges.filterMap fun e =>
    match e.unresolved.truthy, e.source, e.target with
    | false, .text a, .text b => some (a, b)
    | _, _, _ => none
  Network.ofLinks ((s.nodes.filter fun (_, n) => !n.kind.equalsText "external").map Prod.fst) links

end Snapshot

namespace Document

/-- Why a document was not made. -/
inductive Fault where
  /-- There is no document of that name. -/
  | unknown (name : String)
  /-- A value cannot be gone through. -/
  | noItems
  /-- The members of a value that is no table are asked for. -/
  | noTable
  deriving DecidableEq

/-! ## Values in documents -/

/-- A value as it is shown. -/
def shown (d : Datum) : String := d.plain

/-- A value of the advice as it is shown; a list is shown in round brackets. -/
def shownAdvice : Datum → String
  | .list [d] => "(" ++ String.ofList d.literal ++ ",)"
  | .list ds => "(" ++ String.ofList (Datum.literalItems ds) ++ ")"
  | d => d.plain

/-- Values in a row. -/
def row (ds : List Datum) : String := ", ".intercalate (ds.map shown)

/-- What there is to go through in a value. -/
def itemsOf (d : Datum) : Except Fault (List Datum) :=
  match d with
  | .list items => .ok items
  | .text s => .ok (s.toList.map fun c => .text (String.singleton c))
  | .table members => .ok (members.map fun (k, _) => .text k)
  | _ => .error .noItems

/-- What there is to go through in a value that counts as true; nothing in any other. -/
def itemsIfTrue (d : Datum) : Except Fault (List Datum) :=
  if d.truthy then itemsOf d else .ok []

/-- Pairs in the order of their names, capital letters counting as small ones. -/
def byName {α : Type} (pairs : List (String × α)) : List (String × α) :=
  pairs.mergeSort fun a b => decide (Text.lowered a.1 ≤ Text.lowered b.1)

/-- Lines that are there if there is something to say. -/
def ifAny {α : Type} (items : List α) (lines : List String) : List String :=
  if items.isEmpty then [] else lines

/-- Items with their numbers from one on. -/
def numbered (items : List Datum) : List String :=
  (items.zipIdx 1).map fun (d, n) => String.ofList (Text.decimal n) ++ ". " ++ shown d

/-- Items, each with a dash in front. -/
def dashed (items : List Datum) : List String := items.map fun d => "- " ++ shown d

/-- The line of a finding. -/
def findingLine (r : Finding) : String :=
  let place :=
    if r.file.truthy then
      " (`" ++ shown r.file ++ "`" ++ (if r.line.truthy then ":" ++ shown r.line else "") ++ ")"
    else ""
  "- [" ++ shown r.severity ++ "] " ++ shown r.description ++ place

/-! ## The documents -/

/-- The rows of the table of extensions. -/
def extensionRows (histogram : Datum) : Except Fault (List String) :=
  if !histogram.truthy then .ok []
  else
    match histogram with
    | .table members => .ok (["", "| Extension | Files |", "| --- | --- |"] ++
        (byName members).map fun (extension, n) => "| `" ++ extension ++ "` | " ++ shown n ++ " |")
    | _ => .error .noTable

/-- The report. -/
def report (s : Snapshot) : Except Fault (List String) := do
  let extensions ← extensionRows s.figures.histogram
  let priorities ← itemsIfTrue s.counsel.priority
  let insights ← itemsIfTrue s.counsel.insights
  let issues := s.findings.filter fun f => !f.isSecurity
  .ok (
    ["# Project Analysis Report: " ++ shown s.header.name, "",
      "- **Analyzed at**: " ++ shown s.header.analyzedAt,
      "- **Project type**: " ++ shown s.profile.kind,
      "- **Primary language**: " ++ shown s.profile.language] ++
    ifAny s.profile.frameworks ["- **Frameworks**: " ++ row s.profile.frameworks] ++
    ["- **Build tool**: " ++ shown s.profile.buildTool,
      "- **Package manager**: " ++ shown s.profile.packageManager, "",
      "## Code Metrics", "",
      "- Source files: " ++ shown s.figures.totalFiles,
      "- Lines of code: " ++ shown s.figures.totalLines,
      "- Complexity: " ++ shown s.figures.complexity] ++
    extensions ++
    ["", "## Quality", "",
      "**Score**: " ++ shown s.score ++ "/100 (" ++ shownAdvice s.counsel.qualityLevel ++ ")",
      ""] ++
    (if issues.isEmpty then ["No quality issues detected."]
      else "**Issues**:" :: issues.map findingLine) ++
    ifAny s.suggestions (["", "**Suggestions**:"] ++ dashed s.suggestions) ++
    ["", "## Security", ""] ++
    (if s.security.isEmpty then ["No security issues detected."]
      else s.security.map findingLine) ++
    ifAny s.packages.hardening ["", "Security packages in use: " ++ row s.packages.hardening] ++
    ["", "## Development Guidance", "",
      "- **Development phase**: " ++ shownAdvice s.counsel.developmentPhase,
      "- **Technical debt**: " ++ shownAdvice s.counsel.technicalDebt] ++
    ifAny priorities (["", "**Priorities**:"] ++ numbered priorities) ++
    ifAny insights (["", "**Insights**:"] ++ dashed insights) ++
    ifAny s.header.skipped (["", "## Skipped Directories", ""] ++
      s.header.skipped.map fun p => "- `" ++ shown p ++ "`"))

/-- How many of the files that are referred to most are named. -/
def hubLimit : Nat := 5

/-- The lines about the references between files. -/
def networkLines (s : Snapshot) : List String :=
  let n := s.network
  let number (k : Nat) : String := String.ofList (Text.decimal k)
  let external := s.nodes.filter fun (_, x) => x.kind.equalsText "external"
  let unresolved := s.edges.filter fun e => e.unresolved.truthy
  let cycles := n.cycles
  let hubs := n.hubs.take hubLimit
  ["## Module Graph", "",
    "- Files: " ++ number n.files.length,
    "- Internal references: " ++ number n.links.length,
    "- External packages: " ++ number external.length,
    "- Unresolved references: " ++ number unresolved.length] ++
  ifAny cycles (["", "**Circular references**:"] ++
    cycles.map fun c => "- " ++ " -> ".intercalate c) ++
  ifAny hubs (["", "**Most referenced files**:"] ++
    hubs.map fun (path, count) => "- `" ++ path ++ "` (" ++ number count ++ " dependents)")

/-- The architecture. -/
def architecture (s : Snapshot) : List String :=
  ["# Architecture: " ++ shown s.header.name, "",
    if s.outline.patterns.isEmpty then "No architectural pattern detected."
    else "Detected patterns: " ++ row s.outline.patterns ++ "."] ++
  ifAny s.outline.conventions ["Naming conventions: " ++ row s.outline.conventions ++ "."] ++
  ["", "## Directories", "", "| Directory | Purpose | Files | Languages |",
    "| --- | --- | --- | --- |"] ++
  ((byName s.outline.areas).map fun (name, a) => "| `" ++ name ++ "` | " ++ shown a.purpose ++
    " | " ++ shown a.fileCount ++ " | " ++ row a.languages ++ " |") ++
  ["", "## Dependencies", ""] ++
  ifAny s.packages.production ["**Production**: " ++ row s.packages.production] ++
  ifAny s.packages.development ["", "**Development**: " ++ row s.packages.development] ++
  (if s.packages.production.isEmpty && s.packages.development.isEmpty then
    ["No declared dependencies."] else []) ++
  [""] ++ networkLines s

/-- Where to put effort. -/
def focus (s : Snapshot) : Except Fault (List String) := do
  let areas ← itemsOf s.counsel.focusAreas
  let priorities ← itemsOf s.counsel.priority
  .ok (
    ["# Development Focus: " ++ shown s.header.name, "",
      "- **Phase**: " ++ shownAdvice s.counsel.developmentPhase,
      "- **Technical debt**: " ++ shownAdvice s.counsel.technicalDebt,
      "- **Quality level**: " ++ shownAdvice s.counsel.qualityLevel, "",
      "## Focus Areas", ""] ++
    (if areas.isEmpty then ["- No specific focus areas."] else dashed areas) ++
    ["", "## Priorities", ""] ++
    (if priorities.isEmpty then ["No urgent priorities."] else numbered priorities))

/-- The documents of this library by name. -/
def builtin : List (String × (Snapshot → Except Fault (List String))) := [
  ("analysis-report.md", report),
  ("architecture.md", fun s => .ok (architecture s)),
  ("focus.md", focus)]

/-- The names of the documents of this library. -/
def names : List String := builtin.map Prod.fst

/-! ## Templates -/

/-- The place in a template where the name of the project goes, as far as it has been read. -/
def placeholder : List Char → Option (List Char)
  | '{' :: '{' :: rest =>
    let inner := Text.trimLeft (· == ' ') rest
    if "meta.name".toList.isPrefixOf inner then
      match Text.trimLeft (· == ' ') (inner.drop 9) with
      | '}' :: '}' :: behind => some behind
      | _ => none
    else none
  | _ => none

/-- A template with the name of the project filled in, reading at most `fuel` characters. -/
def fill (name : List Char) : (fuel : Nat) → List Char → List Char
  | 0, cs => cs
  | _ + 1, [] => []
  | fuel + 1, c :: cs =>
    match placeholder (c :: cs) with
    | some behind => name ++ fill name fuel behind
    | none => c :: fill name fuel cs

/-- The name under which a template is kept; none for a name that leads out of the templates. -/
def templateName? (name : String) : Option String :=
  let pieces := Path.segments name
  if pieces.contains ".." then none
  else some (Path.ofSegments (pieces.filter fun p => p ≠ "" && p ≠ "."))

/-- The document of a name, a template of that name going before. -/
def make (templates : Assoc String (List Char)) (name : String) (s : Snapshot) :
    Except Fault String := do
  let finish (cs : List Char) : String := String.ofList (Text.strip cs ++ ['\n'])
  match (templateName? name).bind fun n => Assoc.get? n templates with
  | some template =>
    let cs := Text.unifyLineEnds template
    .ok (finish (fill (shown s.header.name).toList cs.length cs))
  | none =>
    match Assoc.get? name builtin with
    | some f => .ok (finish ("\n".intercalate (← f s)).toList)
    | none => .error (.unknown name)

/-- The documents of some names. -/
def makeAll (templates : Assoc String (List Char)) (names : List String) (s : Snapshot) :
    Except Fault (Assoc String String) := do
  .ok (Assoc.ofPairs (← names.mapM fun name => do pure (name, ← make templates name s)))

end Document

end ProjectSurvey
