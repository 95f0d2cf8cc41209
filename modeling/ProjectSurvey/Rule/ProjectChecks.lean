import ProjectSurvey.Classification
import ProjectSurvey.Ignore
import ProjectSurvey.Rule.Basic
import ProjectSurvey.Rule.Version
import ProjectSurvey.Text.Lines

/-!
# Checks of a project

One function per project rule: from what is known about a project to what was seen. **Only the check
of vulnerable packages can break down**, on a version number that cannot be read or on a floor that
is no version.
-/

namespace ProjectSurvey.ProjectChecks

/-- A sighting with nothing to add. -/
def bare : Sighting := ⟨none, none, none⟩

/-- A sighting with a detail. -/
def detailed (d : String) : Sighting := ⟨some d, none, none⟩

/-- No file at the root whose name starts with `readme`. -/
def missingDocumentation (c : ProjectContext) : List Sighting :=
  if c.rootFiles.any fun n => "readme".toList.isPrefixOf (Text.lower n.toList) then []
  else [bare]

/-- Neither a test directory nor a test file. -/
def missingTests (c : ProjectContext) : List Sighting :=
  if c.tree.namesBelow.any fun n => testDirectories.contains (Text.lowered n) then []
  else if c.records.any fun r => r.kind.isTest then []
  else [bare]

/-- None of the lockfiles of the runtime. -/
def missingLockfile (c : ProjectContext) : List Sighting :=
  let runtime := if c.profile.kind = "next-js" then "node" else c.profile.kind
  let lockfiles := (Assoc.get? runtime c.tables.lockfiles).getD []
  if lockfiles.isEmpty || lockfiles.any fun f => c.rootFiles.contains f then []
  else [detailed ("expected one of " ++ Text.commaJoin ", " lockfiles)]

/-- No ignore file at the root. -/
def missingGitignore (c : ProjectContext) : List Sighting :=
  if c.rootFiles.contains ".gitignore" then [] else [bare]

/-- A project of high complexity. -/
def highComplexity (c : ProjectContext) : List Sighting :=
  if c.metrics.complexity = .high then
    [detailed (String.ofList (Text.decimalInt c.metrics.totalFiles ++ " files, ".toList ++
      Text.decimalInt c.metrics.totalLines ++ " lines".toList))]
  else []

/-- Names of environment files that hold no values. -/
def envTemplates : List String := [".env.example", ".env.sample", ".env.template", ".env.dist"]

/-- Whether a name is that of an environment file with values. -/
def isEnvFile (name : String) : Bool :=
  (name == ".env" || ".env.".toList.isPrefixOf name.toList) && !(envTemplates.contains name)

/-- Environment files at the root that the ignore file does not leave out. -/
def envFileCommitted (c : ProjectContext) : List Sighting :=
  let candidates := Text.sorted (c.rootFiles.filter isEnvFile)
  let text := if c.rootFiles.contains ".gitignore" then c.ignoreText.getD [] else []
  let rules := IgnoreRule.ofLines (Text.lines text)
  (candidates.filter fun n => !(isIgnored n false rules)).map fun n => ⟨some n, some n, none⟩

/-- A server framework without any of the packages that harden it. -/
def missingSecurityMiddleware (c : ProjectContext) : List Sighting :=
  let servers := c.profile.frameworks.filter Tables.serverFrameworks.contains
  if servers.isEmpty || c.tables.securityPackages.any fun p => c.packages.contains p then []
  else [detailed (Text.commaJoin ", " servers)]

/-- What is to be said about one declared package: nothing, a sighting, or that a version could not
be read. -/
def vulnerability (c : ProjectContext) (manifest name declared : String) :
    Option (Option Sighting) :=
  match Assoc.get? (Text.lowered name) c.tables.vulnerableBelow with
  | none => some none
  | some floor =>
    match Version.parse declared with
    | .error _ => none
    | .ok none => some none
    | .ok (some version) =>
      match Version.parse floor with
      | .ok (some safe) =>
        if version < safe then
          some (some ⟨some (name ++ " " ++ declared ++ " (fixed in " ++ floor ++ ")"),
            some manifest, none⟩)
        else some none
      | _ => none

/-- Declared packages below their first safe release. -/
def vulnerableDependency (c : ProjectContext) : Option (List Sighting) :=
  let sortedManifests := c.manifests.mergeSort fun a b => decide (a.1 ≤ b.1)
  let declared := sortedManifests.flatMap fun (manifest, m) =>
    (m.allDependencies.mergeSort fun a b => decide (a.1 ≤ b.1)).map fun (n, v) => (manifest, n, v)
  let found := declared.mapM fun (manifest, n, v) => vulnerability c manifest n v
  found.map fun (sightings : List (Option Sighting)) => sightings.filterMap fun s => s

end ProjectSurvey.ProjectChecks
