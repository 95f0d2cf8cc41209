import ProjectSurvey.Json.Reader
import ProjectSurvey.Manifest.Fault
import ProjectSurvey.Manifest.Lines
import ProjectSurvey.Toml.Reader
import ProjectSurvey.Xml.Reader

/-!
# Manifests made of data

The manifests in JSON, TOML and XML. **A part of the wrong shape counts as absent**; only a text
that breaks the rules of its format, a JSON text that is no object, and an integer too long to be
shown make the reader give up.
-/

namespace ProjectSurvey.Manifest

/-- What a reader of manifests answers. -/
abbrev Result := Except ManifestFault Manifest

/-- The members of a value that is a table. -/
def membersOf (d : Option Datum) : List (String × Datum) := (d.bind Datum.table?).getD []

/-! ## JSON -/

/-- The object that a JSON manifest holds. -/
def jsonObject (name : String) (cs : List Char) : Except ManifestFault Datum :=
  match Json.parse cs with
  | .error e => .error (.json e)
  | .ok (.table members) => .ok (.table members)
  | .ok _ => .error (.noObject name)

/-- A member of an object as texts by name. -/
def shownMembers (key : String) (d : Datum) : Assoc String String :=
  (membersOf (d.get? key)).map fun (k, v) => (k, v.plain)

/-- A `package.json`. Packages expected of the user count as production packages. -/
def ofPackageJson (cs : List Char) : Result := do
  let d ← jsonObject "package.json" cs
  pure {
    name := "package.json"
    production := Assoc.update (shownMembers "dependencies" d) (shownMembers "peerDependencies" d)
    development := shownMembers "devDependencies" d
    scripts := shownMembers "scripts" d
    flags := [("workspaces", (d.get? "workspaces").isSome),
      ("private", ((d.get? "private").getD .null).truthy)] }

/-- The packages of a member, the language itself left out. -/
def composerPackages (key : String) (d : Datum) : Assoc String String :=
  Assoc.erase "php" (shownMembers key d)

/-- A `composer.json`. -/
def ofComposerJson (cs : List Char) : Result := do
  let d ← jsonObject "composer.json" cs
  pure { blank "composer.json" with
    production := composerPackages "require" d
    development := composerPackages "require-dev" d
    scripts := shownMembers "scripts" d }

/-! ## TOML -/

/-- The table that a TOML manifest holds. -/
def tomlTable (cs : List Char) : Except ManifestFault Datum :=
  match Toml.parse cs with
  | .error e => .error (.toml e)
  | .ok d => .ok d

/-- A value as a text. -/
def shownText (d : Datum) : Except ManifestFault String :=
  match d.shown? with
  | some s => .ok s
  | none => .error .unshowable

/-- The version that a package entry asks for. -/
def entryVersion : Datum → Except ManifestFault String
  | .text s => .ok s
  | .table members => shownText ((Assoc.get? "version" members).getD (.text anyVersion))
  | _ => .ok anyVersion

/-- The packages of a table of entries. -/
def packages (d : Option Datum) : Except ManifestFault (Assoc String String) :=
  (membersOf d).mapM fun (k, v) => do pure (k, ← entryVersion v)

/-- The packages of a list of requirements. -/
def requirements (d : Option Datum) : Except ManifestFault (Assoc String String) := do
  let texts ← ((d.bind Datum.list?).getD []).mapM shownText
  pure (Assoc.ofPairs (texts.filterMap fun t => Requirement.ofText? t.toList))

/-- The packages of several members, later ones winning. -/
def together (f : Option Datum → Except ManifestFault (Assoc String String))
    (ds : List Datum) : Except ManifestFault (Assoc String String) := do
  let parts ← ds.mapM fun d => f (some d)
  pure (parts.foldl Assoc.update [])

/-- A member of a member of a table. -/
def path? (d : Datum) : List String → Option Datum
  | [] => some d
  | k :: ks => (d.get? k).bind fun d => path? d ks

/-- The texts in the name of a build backend that tell which tool it is of. -/
def backendNames : List String := ["poetry", "hatch", "pdm", "flit", "setuptools"]

/-- A `pyproject.toml`: the packages of the project table, then those of the poetry tables. -/
def ofPyproject (cs : List Char) : Result := do
  let d ← tomlTable cs
  let required ← requirements (path? d ["project", "dependencies"])
  let optional ← together requirements
    ((membersOf (path? d ["project", "optional-dependencies"])).map Prod.snd)
  let scripts ← (membersOf (path? d ["project", "scripts"])).mapM fun (k, v) => do
    pure (k, ← shownText v)
  let poetry := path? d ["tool", "poetry"]
  let poetryRequired ← packages (path? d ["tool", "poetry", "dependencies"])
  let poetryDevelopment ← packages (path? d ["tool", "poetry", "dev-dependencies"])
  let poetryGroups ← together packages
    ((membersOf (path? d ["tool", "poetry", "group"])).map fun (_, g) =>
      (g.get? "dependencies").getD .null)
  let backend ← match d.get? "build-system" with
    | some (.table members) => shownText ((Assoc.get? "build-backend" members).getD (.text ""))
    | _ => .ok ""
  let usesPoetry := (poetry.getD .null).truthy
  pure {
    name := "pyproject.toml"
    production := Assoc.erase "python" (Assoc.update required poetryRequired)
    development := Assoc.update (Assoc.update optional poetryDevelopment) poetryGroups
    scripts := scripts
    flags := backendNames.map fun n =>
      (n, (n == "poetry" && usesPoetry) || Text.occursIn n backend.toList) }

/-- A `Pipfile`. -/
def ofPipfile (cs : List Char) : Result := do
  let d ← tomlTable cs
  let production ← packages (d.get? "packages")
  let development ← packages (d.get? "dev-packages")
  pure ⟨"Pipfile", production, development, [], [("pipenv", true)]⟩

/-- A `Cargo.toml`. -/
def ofCargoToml (cs : List Char) : Result := do
  let d ← tomlTable cs
  let production ← packages (d.get? "dependencies")
  let development ← packages (d.get? "dev-dependencies")
  pure ⟨"Cargo.toml", production, development, [],
    [("workspace", (d.get? "workspace").isSome)]⟩

/-! ## XML -/

/-- The namespace in which the elements of a document are sought: that of its root, unless it has
a line feed in it. -/
def searchSpace (root : Xml.Node) : String :=
  match root.name? with
  | some n => if n.space.toList.contains '\n' then "" else n.space
  | none => ""

/-- A package of a `pom.xml`: name, version, and whether it serves tests only. -/
def pomPackage? (space : String) (dependency : Xml.Node) : Option (String × String × Bool) :=
  let part (name : String) : List Char := (dependency.childText? ⟨space, name⟩).getD []
  let group := part "groupId"
  let artifact := part "artifactId"
  if group.isEmpty || artifact.isEmpty then none
  else some (String.ofList (group ++ ':' :: artifact), versionOr (part "version"),
    part "scope" == "test".toList)

/-- A `pom.xml`. -/
def ofPom (cs : List Char) : Result :=
  match Xml.parse cs with
  | none => .error .xml
  | some root =>
    let space := searchSpace root
    let found := (root.descendants ⟨space, "dependency"⟩).filterMap (pomPackage? space)
    let pick (forTests : Bool) : Assoc String String :=
      Assoc.ofPairs (found.filterMap fun (name, version, test) =>
        if test = forTests then some (name, version) else none)
    .ok { blank "pom.xml" with production := pick false, development := pick true }

/-! ## By file name -/

/-- The readers by the file names they serve. -/
def readers : List (String × (List Char → Result)) := [
  ("package.json", ofPackageJson),
  ("composer.json", ofComposerJson),
  ("requirements.txt", fun cs => .ok (ofRequirements cs)),
  ("pyproject.toml", ofPyproject),
  ("Pipfile", ofPipfile),
  ("Cargo.toml", ofCargoToml),
  ("go.mod", fun cs => .ok (ofGoMod cs)),
  ("Gemfile", fun cs => .ok (ofGemfile cs)),
  ("pom.xml", ofPom),
  ("build.gradle", fun cs => .ok (ofGradle "build.gradle" cs)),
  ("build.gradle.kts", fun cs => .ok (ofGradle "build.gradle.kts" cs))]

/-- The reader for a file name; `none` if a file of that name is no manifest. -/
def reader? (name : String) : Option (List Char → Result) := Assoc.get? name readers

end ProjectSurvey.Manifest
