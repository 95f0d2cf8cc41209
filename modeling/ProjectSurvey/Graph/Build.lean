import ProjectSurvey.Evidence
import ProjectSurvey.FileRecord
import ProjectSurvey.Graph.Basic
import ProjectSurvey.Manifest
import ProjectSurvey.Reference.Resolution
import ProjectSurvey.Text.Lower

/-!
# Building the dependency graph

From the files, what was found in them and the manifests to a `Graph`. Source files come first, in
their order; then the other files that resolved references mean, as assets; then the declared
packages, sorted. **A path reference always yields an edge**, unresolved if no file is known for it;
any other reference yields one only if it names a known module or a declared package. Of the
references of one file that come to the same target only the first is kept.
-/

namespace ProjectSurvey.Graph

/-- Fragments of directory names and the kind of node they stand for, the first one deciding. -/
def kindFragments : List (String × String) := [
  ("component", "component"), ("page", "page"), ("api", "api"), ("util", "utility"),
  ("helper", "utility"), ("service", "service"), ("model", "model"), ("type", "types")]

/-- The kind of node of a source file. -/
def kindOf (r : FileRecord) : String :=
  if r.kind.isTest then "test"
  else
    let directory := Text.lower (Path.directory r.path).toList
    match kindFragments.find? fun (fragment, _) => Text.occursIn fragment directory with
    | some (_, kind) => kind
    | none => "module"

/-- The name under which packages are compared: case and the choice of hyphen or underscore do not
matter. -/
def packageKey (name : String) : String :=
  String.ofList (Text.replaceChar '_' ['-'] (Text.lower name.toList))

/-- The package that a reference belongs to. -/
def packageOf (reference language : String) : String :=
  if language = "python" then String.ofList (Text.before "." reference.toList)
  else
    match Path.segments reference with
    | scope :: name :: _ =>
      if "@".toList.isPrefixOf reference.toList then scope ++ "/" ++ name else scope
    | [single] => single
    | [] => ""

/-- The declared packages with the version asked for first, sorted by name. -/
def declaredVersions (manifests : Manifests) : Assoc String String :=
  let all := manifests.foldl (fun t (_, m) =>
    m.allDependencies.foldl (fun t (name, version) => Assoc.insertNew name version t) t) []
  all.mergeSort fun a b => decide (a.1 ≤ b.1)

/-- The declared package that is called by a name; of several that differ only in case or hyphens
the last one. -/
def declaredAs? (versions : Assoc String String) (name : String) : Option String :=
  (versions.reverse.find? fun (n, _) => packageKey n == packageKey name).map Prod.fst

/-- What is known while references are resolved. -/
structure Scope where
  /-- The lookup tables. -/
  tables : Tables
  /-- The paths of all files. -/
  known : List String
  /-- The declared packages. -/
  versions : Assoc String String

/-- The edge of one reference of a file. -/
def edgeFor? (s : Scope) (r : FileRecord) (reference : String) : Option GraphEdge :=
  let profile := Assoc.get? r.language s.tables.resolutionProfiles
  let resolved (target : String) : GraphEdge := ⟨r.path, target, "import", reference, false⟩
  if Reference.isPath reference then
    match Reference.basePath? r.path reference with
    | none => some ⟨r.path, reference, "import", reference, true⟩
    | some base =>
      match Reference.lookUp base s.known profile with
      | none => some ⟨r.path, base, "import", reference, true⟩
      | some target => some (resolved target)
  else
    let asModule :=
      if r.language = "python" then
        Reference.lookUp (String.ofList (Text.replaceChar '.' ['/'] reference.toList)) s.known
          profile
      else none
    match asModule with
    | some target => some (resolved target)
    | none => (declaredAs? s.versions (packageOf reference r.language)).map resolved

/-- The edges of some references, each target once. `seen` are the targets already reached. -/
def edgesFrom (s : Scope) (r : FileRecord) :
    (seen : List (String × Bool)) → List String → List GraphEdge
  | _, [] => []
  | seen, reference :: rest =>
    match edgeFor? s r reference with
    | none => edgesFrom s r seen rest
    | some e =>
      if seen.contains (e.target, e.unresolved) then edgesFrom s r seen rest
      else e :: edgesFrom s r ((e.target, e.unresolved) :: seen) rest

/-- The node of a source file. -/
def sourceNode (r : FileRecord) (facts : Option Evidence) : GraphNode :=
  ⟨kindOf r, some r.language, (facts.map Evidence.exports).getD [],
    (facts.map Evidence.references).getD [], none⟩

/-- Adds the file that a resolved edge means, if it is no node yet. -/
def addAsset (records : List FileRecord) (nodes : Assoc String GraphNode) (e : GraphEdge) :
    Assoc String GraphNode :=
  if e.unresolved || Assoc.has e.target nodes then nodes
  else
    match records.reverse.find? fun r => r.path == e.target with
    | some r => Assoc.insert e.target ⟨"asset", some r.language, [], [], none⟩ nodes
    | none => nodes

/-- The dependency graph of some files. -/
def build (t : Tables) (records : List FileRecord) (evidence : Assoc String Evidence)
    (manifests : Manifests) : Graph :=
  let scope : Scope := ⟨t, records.map FileRecord.path, declaredVersions manifests⟩
  let sources := records.filter fun r => t.isCountable r.language
  let fileNodes := sources.foldl (fun nodes r =>
    Assoc.insert r.path (sourceNode r (Assoc.get? r.path evidence)) nodes) []
  let edges := sources.flatMap fun r =>
    edgesFrom scope r [] (((Assoc.get? r.path evidence).map Evidence.references).getD [])
  let withAssets := edges.foldl (addAsset records) fileNodes
  let nodes := scope.versions.foldl (fun nodes (name, version) =>
    Assoc.insertNew name ⟨"external", none, [], [], some version⟩ nodes) withAssets
  ⟨nodes, edges⟩

end ProjectSurvey.Graph
