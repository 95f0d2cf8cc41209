import ProjectSurvey.CommandLine.Command
import ProjectSurvey.Configuration.Starter
import ProjectSurvey.Document
import ProjectSurvey.FileReport.OnDisk
import ProjectSurvey.Snapshot.Load
import ProjectSurvey.Survey.Conduct

/-!
# Running commands

What each command does in a workspace and what it prints, and how a command line ends. **A command
ends well, is refused with a text, or breaks down**: `Ending` keeps the three apart, and whatever
the end, what was printed and written before stays.
-/

namespace ProjectSurvey.CommandLine

/-! ## Texts -/

/-- A path as it is printed: from where the command was called, if it is there or below. Where the
command was called must be there still. -/
def printedPath (path : String) : Work String := do
  let w ← get
  if (w.disk.at? w.directory).isNone then throw (.notFound Failure.lostDirectoryText)
  if !Path.isAbsolute path then return Path.tidy path
  match Location.below? w.directory (Path.components path) with
  | some [] => return "."
  | some names => return "/".intercalate names
  | none => return Path.tidy path

/-- A number as it is printed. -/
def number (n : Nat) : String := String.ofList (Text.decimal n)

/-- An integer as it is printed. -/
def integer (n : Int) : String := String.ofList (Text.decimalInt n)

/-- A finding as it is printed. -/
def findingText (f : Finding) : String :=
  let place :=
    if f.file.truthy then
      " (" ++ f.file.plain ++ (if f.line.truthy then ":" ++ f.line.plain else "") ++ ")"
    else ""
  "[" ++ f.severity.plain ++ "] " ++ f.description.plain ++ place

/-- Texts in a row; a value that is no text has no place in one. -/
def textsInRow (ds : List Datum) : Work String := do
  let ss ← ds.mapM fun d =>
    match d with
    | .text s => pure s
    | _ => throw (.misfit .wrongKind)
  pure (", ".intercalate ss)

/-- Prints the gist of a snapshot. -/
def printGist (s : Snapshot) : Work Unit := do
  let shown := Document.shown
  Work.print ("Project: " ++ shown s.header.name ++ " (" ++ shown s.profile.kind ++ ", " ++
    shown s.profile.language ++ ")")
  if !s.profile.frameworks.isEmpty then
    Work.print ("Frameworks: " ++ (← textsInRow s.profile.frameworks))
  Work.print ("Files: " ++ shown s.figures.totalFiles ++ "  Lines: " ++
    shown s.figures.totalLines ++ "  Complexity: " ++ shown s.figures.complexity)
  Work.print ("Quality score: " ++ shown s.score ++ "/100 (" ++
    Document.shownAdvice s.counsel.qualityLevel ++ ")")
  Work.print ("Security findings: " ++ number s.security.length)
  if !s.header.skipped.isEmpty then
    Work.print ("Skipped unreadable directories: " ++ (← textsInRow s.header.skipped))

/-- Prints what the rules say. -/
def printVerdict (s : Survey) : Work Unit := do
  Work.print ("Quality score: " ++ integer s.verdict.score ++ "/100 (" ++ s.advice.qualityLevel ++
    ")")
  if s.verdict.findings.isEmpty then Work.print "No findings"
  else
    for f in s.verdict.findings do Work.print ("- " ++ findingText f)
    if !s.verdict.suggestions.isEmpty then
      Work.print "Suggestions:"
      for t in s.verdict.suggestions do Work.print ("- " ++ t)

/-- Texts in a row, or a word for none. -/
def rowOrNone (ss : List String) : String :=
  let row := ", ".intercalate ss
  if row = "" then "none" else row

/-- Prints what to attend to. -/
def printAdvice (a : Advice) : Work Unit := do
  Work.print ("Phase: " ++ a.developmentPhase ++ "  Technical debt: " ++ a.technicalDebt)
  Work.print ("Focus areas: " ++ rowOrNone a.focusAreas)
  Work.print ("Priority: " ++ rowOrNone a.priority)
  for t in a.insights do Work.print ("- " ++ t)

/-- Prints a report on a file. -/
def printFileReport (r : FileReport) : Work Unit := do
  Work.print ("File: " ++ r.path ++ " (" ++ r.language ++ ")")
  Work.print ("Lines: " ++ number r.lines.total ++ " (code " ++ number r.lines.code ++
    ", comments " ++ number r.lines.comment ++ ", blank " ++ number r.lines.blank ++ ")")
  Work.print ("Cyclomatic complexity: " ++ number r.complexity)
  Work.print ("Quality score: " ++ integer r.score ++ "/100 (" ++ r.qualityLevel ++ ")  Risk: " ++
    r.riskLevel)
  for f in r.findings do Work.print ("- " ++ findingText f)

/-- Prints a value as JSON. -/
def printJson (d : Datum) : Work Unit := Work.print (String.ofList (Json.pretty d))

/-! ## Commands -/

/-- The directory for output of a project, as its configuration says. -/
def outputDirectory (root : Location) : Work String := do
  let o ← Surveyor.options root none Overrides.none
  pure (Path.join root.text o.outputDirectory)

/-- Prepares a project. -/
def runInit (path : String) : Work Unit := do
  let root ← Work.locateProject path
  match (← get).disk.directoryAt root.text with
  | .error f => throw (.refused f root.text)
  | .ok false =>
    throw (.notDirectory ("Project path is not a directory: " ++ Path.tidy path))
  | .ok true =>
    let output ← outputDirectory root
    Work.change fun disk => disk.makeDirectories output
    Work.print ("Output directory ready at " ++ (← printedPath output))
    match ← Configuration.writeStarter root with
    | none => Work.print "Configuration already present; left unchanged"
    | some file => Work.print ("Starter configuration written to " ++ (← printedPath file))

/-- Shows the survey that was kept. -/
def runStatus (path : String) : Work Unit := do
  let root ← Work.locateProject path
  let file := Path.join (← outputDirectory root) Snapshot.fileName
  match ← Work.ofExcept (Snapshot.load (← get).disk file) with
  | none => Work.print "No saved analysis. Run `devassist analyze` first."
  | some s =>
    Work.print ("Last analysis: " ++ Document.shown s.header.analyzedAt ++ " (devassist " ++
      Document.shown s.header.version ++ ")")
    printGist s

/-- Keeps a snapshot of a project. -/
def keep (root : Location) (s : Snapshot) : Work Unit := do
  s.save (← outputDirectory root) Snapshot.fileName

/-- Where the project of a survey is. -/
def rootOf (s : Survey) : Location := Path.components s.header.root

/-- Surveys a project. -/
def runAnalyze (s : Surveyor) (path : String) (wishes : Overrides) (json keeps : Bool) :
    Work Unit := do
  let survey ← s.conduct path none wishes
  let snapshot := Snapshot.ofSurvey survey
  if keeps then keep (rootOf survey) snapshot
  if json then printJson (← Work.ofExcept snapshot.layOut) else printGist snapshot

/-- Writes the documents of a snapshot into a directory. -/
def writeDocuments (s : Snapshot) (directory : String) : Work Unit := do
  let place ← Work.absolute directory
  let time := (← get).time
  Work.change fun disk => disk.makeDirectories place
  match Document.makeAll [] Document.names s with
  | .error f => throw (.undocumented f)
  | .ok documents =>
    for (name, text) in documents do
      Work.change fun disk => disk.writeText time (Path.join place name) text.toList
    Work.say (.documented documents.length (Path.tidy directory))
    for (name, _) in documents do
      Work.print ("Wrote " ++ (← printedPath (Path.join directory name)))

/-- Writes the documents of a project. -/
def runDocs (s : Surveyor) (path : String) (wishes : Overrides) (output : Option String) :
    Work Unit := do
  let survey ← s.conduct path none wishes
  let directory ← match output with
    | some "" | none => do pure (Path.join (← outputDirectory (rootOf survey)) "docs")
    | some directory => pure directory
  writeDocuments (Snapshot.ofSurvey survey) directory

/-- Removes the directory for output of a project, if it lies inside. -/
def runClean (path : String) : Work Unit := do
  let root ← Work.locateProject path
  let target ← Work.locate (← outputDirectory root)
  let isInside := match Location.below? root target with
    | some (_ :: _) => true
    | _ => false
  if !isInside then
    throw (.invalid ("Refusing to remove " ++ target.text ++ ": not inside " ++ root.text))
  match (← get).disk.existsAt target.text with
  | .error f => throw (.refused f target.text)
  | .ok false => Work.print "Nothing to clean"
  | .ok true =>
    Work.change fun disk => disk.removeDirectory target.text
    Work.print ("Removed " ++ (← printedPath target.text))

/-- Reports on a file. -/
def runFile (file root : String) (json : Bool) : Work Unit := do
  let root ← Work.locateProject root
  let report ← Work.ofExcept (FileReport.ofFile Tables.default
    (Rule.builtin Rule.defaultOversizedLines) Options.defaultFileSize (← get).disk root file)
  if json then printJson report.toDatum else printFileReport report

/-- Runs a command. -/
def Command.run (s : Surveyor) : Command → Work Unit
  | init path => runInit path
  | status path => runStatus path
  | analyze path wishes json keeps => runAnalyze s path wishes json keeps
  | docs path wishes output => runDocs s path wishes output
  | audit path wishes => do printVerdict (← s.conduct path none wishes)
  | focus path wishes => do printAdvice (← s.conduct path none wishes).advice
  | clean path => runClean path
  | file target root json => runFile target root json

/-! ## Endings -/

/-- How a command line ends. -/
inductive Ending where
  /-- It did what it was asked for. -/
  | done
  /-- It was not used as it is meant. -/
  | misused (m : Misuse)
  /-- It was refused, with a text for the user. -/
  | refused (text : String)
  /-- It broke down. -/
  | broken (f : Failure)

/-- The text with which a command ends on a failure; nothing if it breaks down. -/
def refusalOf? (command : String) (f : Failure) : Option String :=
  let failed (text : String) : String := "devassist " ++ command ++ " failed: " ++ text ++ "\n"
  match f with
  | .isDirectory text => some (text ++ "\n")
  | .notFound text => some (failed text)
  | .notDirectory text => some (failed text)
  | .notGranted text => some (failed text)
  | .refused cause path =>
    let text := Failure.refusalText cause path
    match cause with
    | .isDirectory => some (text ++ "\n")
    | .missing | .noDirectory | .denied | .zero => some (failed text)
    | _ => some (failed text ++ "Run with --verbose for more details.\n")
  | f => f.invalidText?.map failed

/-- A notice as a line of the log. -/
def logLine (n : Notice) : String :=
  "[devassist] " ++ (if n.isWarning then "WARNING " else "INFO ") ++ n.text

/-- Whether a notice is shown for a command. -/
def isShown (i : Invocation) (n : Notice) : Bool :=
  match i.verbose, n with
  | true, .cacheUnwritten _ => false
  | true, _ => true
  | false, n =>
    match i.command with
    | .analyze _ _ true _ => n.isWarning
    | .file _ _ true => n.isWarning
    | _ => true

/-- Runs a command line in a workspace. The notices of the workspace afterwards are those shown;
with everything to be said, a cache that was not written is an error with details and no notice. -/
def execute (s : Surveyor) (words : List String) (w : Workspace) : Ending × Workspace :=
  match Command.parse words with
  | .error m => (.misused m, w)
  | .ok i =>
    let (result, w) := (i.command.run s).run w
    let w := { w with notices := w.notices.filter (isShown i) }
    match result with
    | .ok () => (.done, w)
    | .error f =>
      match refusalOf? i.command.name f with
      | some text => (.refused text, w)
      | none => (.broken f, w)

end ProjectSurvey.CommandLine
