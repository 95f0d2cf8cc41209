import ProjectSurvey.Manifest
import ProjectSurvey.Tables
import ProjectSurvey.Text.Chars

/-!
# What kind of project it is

Runtime, language, frameworks, build tool and package manager, from the files at the root and the
manifests read. **The first runtime of the tables with a manifest present wins**; frameworks are
looked for in the packages of all manifests, whatever the runtime. `Dependencies.ofManifests`
groups the declared packages.
-/

namespace ProjectSurvey

/-- The kind of a project. -/
structure ProjectProfile where
  /-- Its type, `generic` if no manifest was found. -/
  kind : String
  /-- Its primary language. -/
  language : String
  /-- Its frameworks. -/
  frameworks : List String
  /-- What builds it. -/
  buildTool : String
  /-- What installs its packages. -/
  packageManager : String
  /-- The manifests of its runtime that are present. -/
  manifests : List String

/-- The declared packages by scope. -/
structure Dependencies where
  /-- Packages needed in production, sorted. -/
  production : List String
  /-- Packages needed in development only, sorted. -/
  development : List String
  /-- The packages that harden the project, in the order of the tables. -/
  security : List String

namespace ProjectProfile

/-- A project of which nothing is known. -/
def generic : ProjectProfile := ⟨"generic", "unknown", [], "unknown", "unknown", []⟩

/-- The first runtime with a manifest present. -/
def runtimeOf? (t : Tables) (present : List String) : Option Runtime :=
  t.runtimes.find? fun r => r.manifests.any fun m => present.contains m

/-- Whether a package of the given name is declared; a coordinate of two halves is matched by any
part of it. -/
def declares (packages : List String) (name : String) : Bool :=
  packages.contains name ||
    packages.any fun p => p.toList.contains ':' && Text.occursIn name p.toList

/-- The frameworks whose packages are declared, each label once. -/
def frameworksOf (t : Tables) (packages : List String) : List String :=
  let labels := t.frameworks.flatMap Prod.snd
  Text.distinct ((labels.filter fun l => l.names.any (declares packages)).map Labelled.label)

/-- The build tool that a file reveals. -/
def buildToolOf? (t : Tables) (present : List String) : Option String :=
  ((t.buildTools.find? fun (file, _) => present.contains file).map Prod.snd).filter (· ≠ "")

/-- Whether a project type is one of the script runtimes. -/
def isScript (kind : String) : Bool := kind == "node" || kind == "next-js"

/-- Build back ends in the order in which they are considered. -/
def backEnds : List String := ["poetry", "hatch", "pdm", "flit", "setuptools"]

/-- The build tool that goes with a runtime. -/
def runtimeBuildTool (kind : String) (present : List String) (manifests : Manifests) : String :=
  if kind = "rust" then "cargo"
  else if kind = "go" then "go"
  else if kind = "php" then "composer"
  else if kind = "ruby" then "bundler"
  else if kind = "java" then (if present.contains "pom.xml" then "maven" else "gradle")
  else if kind = "python" then
    let declared := (Assoc.get? "pyproject.toml" manifests).bind fun m => backEnds.find? m.holds
    match declared with
    | some tool => tool
    | none =>
      if present.contains "setup.py" || present.contains "setup.cfg" then "setuptools" else "pip"
  else if isScript kind then
    match Assoc.get? "package.json" manifests with
    | some m => if Assoc.has "build" m.scripts then "npm-scripts" else "unknown"
    | none => "unknown"
  else "unknown"

/-- The package manager that goes with a runtime. -/
def packageManagerOf (kind : String) (present : List String) (manifests : Manifests) : String :=
  if isScript kind then
    if present.contains "yarn.lock" then "yarn"
    else if present.contains "pnpm-lock.yaml" then "pnpm"
    else if present.contains "bun.lockb" then "bun"
    else "npm"
  else if kind = "python" then
    let poetry := match Assoc.get? "pyproject.toml" manifests with
      | some m => m.holds "poetry"
      | none => false
    if present.contains "poetry.lock" || poetry then "poetry"
    else if present.contains "Pipfile" then "pipenv"
    else if present.contains "uv.lock" then "uv"
    else "pip"
  else if kind = "rust" then "cargo"
  else if kind = "go" then "go-modules"
  else if kind = "php" then "composer"
  else if kind = "ruby" then "bundler"
  else if kind = "java" then (if present.contains "pom.xml" then "maven" else "gradle")
  else "unknown"

/-- The lower-case names of all declared packages. -/
def packagesOf (manifests : Manifests) : List String :=
  Text.distinct (manifests.flatMap fun (_, m) =>
    (Assoc.keys m.allDependencies).map Text.lowered)

/-- The kind of a project with the given files at its root. -/
def detect (t : Tables) (present : List String) (manifests : Manifests) : ProjectProfile :=
  match runtimeOf? t present with
  | none => { generic with buildTool := (buildToolOf? t present).getD "unknown" }
  | some runtime =>
    let packages := packagesOf manifests
    let isNode : Bool := runtime.kind == "node"
    let typed := isNode && (packages.contains "typescript" || present.contains "tsconfig.json")
    let kind := if isNode && packages.contains "next" then "next-js" else runtime.kind
    { kind := kind
      language := if typed then "typescript" else runtime.language
      frameworks := frameworksOf t packages
      buildTool := match buildToolOf? t present with
        | some tool => tool
        | none => runtimeBuildTool kind present manifests
      packageManager := packageManagerOf kind present manifests
      manifests := runtime.manifests.filter fun m => present.contains m }

end ProjectProfile

/-- The packages that some manifests declare. A package of both scopes counts for production. -/
def Dependencies.ofManifests (t : Tables) (manifests : Manifests) : Dependencies :=
  let production := Text.distinct (manifests.flatMap fun (_, m) => Assoc.keys m.production)
  let development := Text.distinct (manifests.flatMap fun (_, m) => Assoc.keys m.development)
  let declared := (production ++ development).map Text.lowered
  { production := Text.sorted production
    development := Text.sorted (development.filter fun d => !(production.contains d))
    security := t.securityPackages.filter fun p => declared.contains p }

end ProjectSurvey
