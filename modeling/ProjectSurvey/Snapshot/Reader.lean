import ProjectSurvey.Data.ReadFault
import ProjectSurvey.Snapshot

/-!
# Reading snapshots

From an open value to a snapshot. **Every part must be there, and its containers must be of the
right kind**; parts that came later have a value of their own for files written before. Where a list
is asked for, the characters of a text and the keys of a table will do, and where a table of named
facts is asked for, a list of pairs.
-/

namespace ProjectSurvey.Snapshot

/-- Why a value is no snapshot. -/
inductive Misfit where
  /-- A part is missing. -/
  | missing (key : String)
  /-- A value is of the wrong kind, or a fact is not among those that are known or lacks. -/
  | wrongKind
  /-- The members of a value that is no table are asked for. -/
  | noTable
  /-- An item of what should be a list of pairs is none. -/
  | noPair (position length : Nat)
  deriving DecidableEq

/-- The text of an item that is no pair. -/
def pairText (position length : Nat) : String :=
  "dictionary update sequence element #" ++ String.ofList (Text.decimal position) ++
    " has length " ++ String.ofList (Text.decimal length) ++ "; 2 is required"

/-- What reading a part comes to. -/
abbrev Reading (α : Type) := Except Misfit α

/-! ## Parts of values -/

/-- A part that must be there. -/
def part (key : String) (d : Datum) : Reading Datum :=
  match d with
  | .table members =>
    match Assoc.get? key members with
    | some v => .ok v
    | none => .error (.missing key)
  | _ => .error .wrongKind

/-- A part with a value in its place. -/
def partOr (key : String) (usual d : Datum) : Reading Datum :=
  match d with
  | .table members => .ok ((Assoc.get? key members).getD usual)
  | _ => .error .noTable

/-- The members of a table. -/
def membersOf (d : Datum) : Reading (List (String × Datum)) :=
  match d with
  | .table members => .ok members
  | _ => .error .noTable

/-- What there is to go through in a value. -/
def itemsOf (d : Datum) : Reading (List Datum) :=
  match d with
  | .list items => .ok items
  | .text s => .ok (s.toList.map fun c => .text (String.singleton c))
  | .table members => .ok (members.map fun (k, _) => .text k)
  | _ => .error .wrongKind

/-- The items of a part that must be there. -/
def listAt (key : String) (d : Datum) : Reading (List Datum) := do itemsOf (← part key d)

/-- The items of a part, or none. -/
def listAtOr (key : String) (d : Datum) : Reading (List Datum) := do
  itemsOf (← partOr key (.list []) d)

/-! ## Named facts -/

/-- Facts by name. -/
structure Facts where
  /-- The facts. -/
  named : Assoc String Datum
  /-- Whether there is a fact whose name is no text. -/
  stray : Bool

namespace Facts

/-- One more pair, at a position of the list of pairs. -/
def add (f : Facts) (position : Nat) (pair : Datum) : Reading Facts := do
  match ← itemsOf pair with
  | [.text k, v] => .ok { f with named := Assoc.insert k v f.named }
  | [.list _, _] => .error .wrongKind
  | [.table _, _] => .error .wrongKind
  | [_, _] => .ok { f with stray := true }
  | items => .error (.noPair position items.length)

/-- The facts of a list of pairs. -/
def ofPairs (f : Facts) (position : Nat) : List Datum → Reading Facts
  | [] => .ok f
  | pair :: pairs => do ofPairs (← f.add position pair) (position + 1) pairs

/-- The facts in a value. -/
def ofDatum (d : Datum) : Reading Facts :=
  match d with
  | .table members => .ok ⟨members, false⟩
  | d => do ofPairs ⟨[], false⟩ 0 (← itemsOf d)

/-- A fact, or a value in its place. -/
def getOr (f : Facts) (key : String) (usual : Datum) : Datum :=
  (Assoc.get? key f.named).getD usual

/-- The items of a fact, or none. -/
def listOr (f : Facts) (key : String) : Reading (List Datum) :=
  itemsOf (f.getOr key (.list []))

/-- Checks that there are facts of the given names only, the needed ones among them. -/
def check (f : Facts) (needed further : List String) : Reading Unit :=
  if f.stray || f.named.any (fun (k, _) => !needed.contains k && !further.contains k) ||
      needed.any (fun k => !Assoc.has k f.named) then .error .wrongKind
  else .ok ()

end Facts

/-- The facts in a table with given names only. -/
def factsOf (needed further : List String) (d : Datum) : Reading Facts :=
  match d with
  | .table members => do
    let f : Facts := ⟨members, false⟩
    f.check needed further
    .ok f
  | _ => .error .wrongKind

/-! ## Parts of snapshots -/

/-- A reference. -/
def Edge.ofDatum (d : Datum) : Reading Edge := do
  let f ← factsOf ["source", "target"] ["kind", "reference", "unresolved"] d
  .ok ⟨f.getOr "source" .null, f.getOr "target" .null, f.getOr "kind" (.text "import"),
    f.getOr "reference" (.text ""), f.getOr "unresolved" (.bool false)⟩

/-- An observation. -/
def findingOf (d : Datum) : Reading Finding := do
  let f ← factsOf ["rule_id", "category", "severity", "description"] ["file", "line"] d
  .ok ⟨f.getOr "rule_id" .null, f.getOr "category" .null, f.getOr "severity" .null,
    f.getOr "description" .null, f.getOr "file" .null, f.getOr "line" .null⟩

/-- The metrics. -/
def Figures.ofDatum (d : Datum) : Reading Figures := do
  let f ← factsOf [] ["total_files", "total_lines", "file_type_histogram", "complexity"] d
  .ok ⟨f.getOr "total_files" (.nat 0), f.getOr "total_lines" (.nat 0),
    f.getOr "file_type_histogram" (.table []), f.getOr "complexity" (.text "low")⟩

/-- What to attend to. -/
def Counsel.ofDatum (d : Datum) : Reading Counsel := do
  let f : Facts := ⟨← membersOf d, false⟩
  f.check [] ["focus_areas", "development_phase", "technical_debt", "priority", "quality_level",
    "insights"]
  .ok ⟨f.getOr "focus_areas" (.list []), f.getOr "development_phase" (.text "early"),
    f.getOr "technical_debt" (.text "low"), f.getOr "priority" (.list []),
    f.getOr "quality_level" (.text "excellent"), f.getOr "insights" (.list [])⟩

/-- A top-level directory. -/
def Area.ofDatum (d : Datum) : Reading Area := do
  .ok ⟨← part "purpose" d, ← part "file_count" d, ← part "size" d, ← listAtOr "languages" d⟩

/-- The structure of a project. -/
def Outline.ofDatum (d : Datum) : Reading Outline := do
  let areas ← (← membersOf (← part "directories" d)).mapM fun (name, a) => do
    pure (name, ← Area.ofDatum a)
  .ok ⟨areas, ← listAt "patterns" d, ← listAt "conventions" d⟩

/-- The declared packages. -/
def Packages.ofDatum (d : Datum) : Reading Packages := do
  .ok ⟨← listAt "production" d, ← listAt "development" d, ← listAt "security" d⟩

/-- A file or package. -/
def Node.ofDatum (d : Datum) : Reading Node := do
  .ok ⟨← part "kind" d, ← partOr "language" .null d, ← listAtOr "exports" d,
    ← listAtOr "imports" d, ← partOr "version" .null d⟩

/-- A file. -/
def File.ofDatum (d : Datum) : Reading File := do
  let kind ← partOr "kind" .null d
  let kind := if kind.truthy then kind else .table []
  let path ← part "path" d
  let size ← part "size" d
  let extension ← part "extension" d
  let language ← partOr "language" (.text "unknown") kind
  let hint ← partOr "framework_hint" .null kind
  let tags ← listAtOr "purpose_tags" kind
  .ok ⟨path, size, extension, language, hint, tags, ← part "modified" d,
    ← partOr "mtime_ns" (.nat 0) d⟩

namespace Folder

/-- A directory whose subdirectories are read by `below`. -/
def ofParts (below : Datum → Reading Folder) (d : Datum) : Reading Folder := do
  let name ← part "name" d
  let path ← part "path" d
  let purpose ← part "purpose" d
  let directories ← (← listAtOr "directories" d).mapM below
  let files ← (← listAtOr "files" d).mapM File.ofDatum
  .ok (.node name path purpose directories files (← part "file_count" d) (← part "size" d)
    (← partOr "readable" (.bool true) d))

/-- A directory with at most `levels` levels of directories below it. -/
def ofDatumWithin : (levels : Nat) → Datum → Reading Folder
  | 0 => ofParts fun _ => .error .wrongKind
  | levels + 1 => ofParts (ofDatumWithin levels)

/-- A directory with everything below it. -/
def ofDatum (d : Datum) : Reading Folder := ofDatumWithin d.depth d

end Folder

/-! ## The whole -/

/-- The snapshot that a value lays out. -/
def ofDatum (d : Datum) : Reading Snapshot := do
  let header ← Facts.ofDatum (← part "metadata" d)
  let skipped ← header.listOr "skipped"
  let profile ← Facts.ofDatum (← part "project" d)
  let frameworks ← profile.listOr "frameworks"
  let manifests ← profile.listOr "manifests"
  let structurePart ← part "structure" d
  let dependencies ← part "dependencies" d
  let graph ← part "graph" d
  let quality ← part "quality" d
  let counsel ← part "recommendations" d
  header.check ["name", "root", "analyzed_at", "version"] ["skipped"]
  profile.check []
    ["type", "language", "frameworks", "build_tool", "package_manager", "manifests"]
  let tree ← Folder.ofDatum (← part "tree" d)
  let outline ← Outline.ofDatum structurePart
  let packages ← Packages.ofDatum dependencies
  let nodes ← (← membersOf (← part "nodes" graph)).mapM fun (key, n) => do
    pure (key, ← Node.ofDatum n)
  let edges ← (← listAt "edges" graph).mapM Edge.ofDatum
  let figures ← Figures.ofDatum (← part "metrics" d)
  let score ← part "score" quality
  let findings ← (← listAt "findings" quality).mapM findingOf
  let suggestions ← listAt "suggestions" quality
  let security ← (← listAt "security" d).mapM findingOf
  let counsel ← Counsel.ofDatum counsel
  .ok {
    header := ⟨header.getOr "name" .null, header.getOr "root" .null,
      header.getOr "analyzed_at" .null, header.getOr "version" .null, skipped⟩
    profile := ⟨profile.getOr "type" (.text "generic"),
      profile.getOr "language" (.text "unknown"), frameworks,
      profile.getOr "build_tool" (.text "unknown"),
      profile.getOr "package_manager" (.text "unknown"), manifests⟩
    tree, outline, packages, nodes, edges, figures, score, findings, suggestions, security
    counsel }

end ProjectSurvey.Snapshot
