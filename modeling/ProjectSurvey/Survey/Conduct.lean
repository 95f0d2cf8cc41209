import ProjectSurvey.Configuration.Load
import ProjectSurvey.Data.Calendar
import ProjectSurvey.Graph.Build
import ProjectSurvey.Manifest.OnDisk
import ProjectSurvey.Rule.Discovery
import ProjectSurvey.Survey
import ProjectSurvey.Survey.Evidence
import ProjectSurvey.Walk
import ProjectSurvey.Workspace

/-!
# Conducting a survey

From a project on the disk to its `Survey`: the options, the walk, the manifests, the evidence, and
what follows from them. **Only an unusable root, a depth that is out of the question and a
configuration that breaks down end a survey early**; all else is noted and makes the survey poorer.
`Survey.assemble` is the part that looks at no disk.
-/

namespace ProjectSurvey

/-- Who conducts surveys: what all of them have in common. -/
structure Surveyor where
  /-- The lookup tables. -/
  tables : Tables
  /-- The rules, in the place of the usual ones. -/
  rules : Option (List Rule)
  /-- What the clock shows. -/
  moment : Moment

namespace Survey

/-- The version of the analysis. -/
def version : String := "1.0.0"

/-- What a survey is made of. -/
structure Material where
  /-- The lookup tables. -/
  tables : Tables
  /-- The rules. -/
  rules : List Rule
  /-- What the walk found. -/
  scan : Scan
  /-- The manifests. -/
  manifests : Manifests
  /-- The evidence by path. -/
  evidence : Assoc String Evidence
  /-- The text of the ignore file at the root, if it can be read. -/
  ignoreText : Option (List Char)
  /-- What the clock shows. -/
  moment : Moment

/-- The survey that follows from its material. -/
def assemble (m : Material) : Survey :=
  let rootFiles := m.scan.rootFiles
  let profile := ProjectProfile.detect m.tables rootFiles m.manifests
  let dependencies := Dependencies.ofManifests m.tables m.manifests
  let metrics := Metrics.measure m.tables m.scan.files m.evidence
  let verdict := Engine.evaluate m.rules
    { rootFiles
      records := m.scan.files
      tree := m.scan.tree
      profile
      manifests := m.manifests
      metrics
      ignoreText := m.ignoreText
      tables := m.tables
      packages := (dependencies.production ++ dependencies.development).map Text.lowered }
    m.evidence
  { header := ⟨m.scan.root.name, m.scan.root.text, m.moment.text, version, m.scan.skipped⟩
    profile
    tree := m.scan.tree
    layout := Layout.ofTree m.tables m.scan.tree
    dependencies
    graph := Graph.build m.tables m.scan.files m.evidence m.manifests
    metrics
    verdict
    security := verdict.security
    advice := Advice.synthesize metrics verdict verdict.security profile }

end Survey

namespace Surveyor

/-! ## Options -/

/-- The configuration of a project; one for which its file is to blame counts as empty. -/
def configuration (root : Location) : Work Configuration := do
  match Configuration.load (← get).disk root.text with
  | .ok c => pure c
  | .error (.configuration name cause) =>
    match Failure.configurationText name cause with
    | some reason =>
      Work.say (.configurationIgnored reason)
      pure Configuration.empty
    | none => throw (.configuration name cause)
  | .error f => throw f

/-- The options for a project: those given, or those of its configuration, with the wishes of the
caller above them. -/
def options (root : Location) (given : Option Options) (wishes : Overrides) : Work Options := do
  let options ← match given with
    | some o => pure o
    | none => do
      let (o, aside) := Options.ofConfiguration (← configuration root)
      for s in aside do Work.say (.settingIgnored s)
      pure o
  match options.override? wishes with
  | some o => pure o
  | none => throw (.invalid Failure.depthText)

/-- The first name of the path of the directory for output, which is never walked; nothing if there
is no directory for output. -/
def outputTop (directory : String) : Except Failure (List String) :=
  if directory = "" then .ok []
  else if Path.isAbsolute directory then .ok ["/"]
  else
    match Path.components directory with
    | [] => .error .namelessOutput
    | top :: _ => .ok [top]

/-- How a project is walked under some options. -/
def walkSettings (o : Options) : Except Failure WalkSettings := do
  .ok {
    ignoreDirectories := Text.distinct (o.ignoreDirectories ++ (← outputTop o.outputDirectory))
    maxDepth := o.maxDepth
    excludePatterns := o.excludePaths
    useGitignore := o.useGitignore
    maxFileSize := o.maxFileSize }

/-- The rules under some options. -/
def rulesFor (s : Surveyor) (o : Options) : List Rule :=
  match s.rules with
  | some rules => rules.filter fun r => !o.disabledRules.contains r.id
  | none => Rule.table o.disabledRules o.oversizedLines []

/-! ## The parts of a survey -/

/-- The walk of a project. -/
def scan (s : Surveyor) (root : Location) (o : Options) : Work Scan := do
  let settings ← Work.ofExcept (walkSettings o)
  let scan ← Work.ofExcept (Walk.scan s.tables settings (← get).disk root)
  for path in scan.skipped do
    let shown := Path.join root.text path
    Work.say (.directorySkipped path (Failure.refusalText (Walk.refusal root path) shown))
  pure scan

/-- The manifests of a project. -/
def manifests (root : Location) (rootFiles : List String) : Work Manifests := do
  let found := Manifest.foundAmong (← get).disk root.text rootFiles
  for (name, f) in found do
    match f.unread with
    | some reason => Work.say (.manifestUnread name reason)
    | none => pure ()
  pure (found.map fun (name, f) => (name, f.manifest))

/-- Where the evidence cache of a project is. -/
def cachePath (root : Location) (o : Options) : String :=
  Path.join (Path.join root.text o.outputDirectory) "cache/evidence.json"

/-- Evidence whose findings can be told apart by their rules; what holds other values is no name of
a rule. -/
def withNamedRules (found : Assoc String Evidence) : Except Failure (Assoc String Evidence) :=
  if found.any fun (_, e) => e.findings.any fun f => f.ruleId.isContainer then .error .namelessRule
  else .ok found

/-- The evidence of a project, from the cache and for it if the options say so. -/
def evidence (s : Surveyor) (rules : List Rule) (scan : Scan) (o : Options) :
    Work (Assoc String Evidence) := do
  let disk := (← get).disk
  let cache ← if o.cache then do
      pure (some (← Work.ofExcept (EvidenceCache.load disk (some (cachePath scan.root o)))))
    else pure none
  let signature ← match Gathering.signatureOf? rules o.oversizedLines with
    | some signature => pure signature
    | none => throw (.invalid Failure.unshowableText)
  let gathering : Gathering :=
    { tables := s.tables, rules, signature
      read := fun path => disk.readWithin o.maxFileSize (Path.join scan.root.text path) }
  let (found, cache) := gathering.gather cache scan.files
  match cache with
  | none => pure ()
  | some c =>
    let (_, disk, failed) := c.persist disk (← get).time (some (cachePath scan.root o))
    modify fun w => { w with disk }
    match failed with
    | none => pure ()
    | some f =>
      match f.refusal? with
      | some (cause, path) => Work.say (.cacheUnwritten (Failure.refusalText cause path))
      | none => throw f
  Work.ofExcept (withNamedRules found)

/-- Conducts the survey of the project that a path stands for. -/
def conduct (s : Surveyor) (path : String) (given : Option Options) (wishes : Overrides) :
    Work Survey := do
  let root ← Work.locateProject path
  Work.say (.analysing root.text)
  Work.ofExcept (Walk.checkRoot (← get).disk root root.text)
  let o ← options root given wishes
  let scan ← s.scan root o
  let manifests ← manifests root scan.rootFiles
  let rules := s.rulesFor o
  let evidence ← s.evidence rules scan o
  let ignoreText :=
    (← get).disk.readWithin o.maxFileSize (Path.join root.text Walk.ignoreFile)
  let survey := Survey.assemble
    { tables := s.tables, rules, scan, manifests, evidence, ignoreText, moment := s.moment }
  Work.say (.analysed survey.profile.kind survey.metrics.totalFiles survey.verdict.score)
  pure survey

end Surveyor

end ProjectSurvey
