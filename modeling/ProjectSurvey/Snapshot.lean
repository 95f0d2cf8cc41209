import ProjectSurvey.Data.Datum
import ProjectSurvey.Survey

/-!
# Snapshots

What is kept of a survey. A snapshot has the parts of a survey, but **its leaves are open values**:
a file that was written by something else is read as long as its containers are right, and shows
what it holds. `Snapshot.ofSurvey` takes the snapshot of a survey, `Snapshot.toDatum` lays it out as
one value.
-/

namespace ProjectSurvey

namespace Snapshot

/-- What an analysis was about. -/
structure Header where
  /-- The name of the project. -/
  name : Datum
  /-- Where the project is. -/
  root : Datum
  /-- When it was analysed. -/
  analyzedAt : Datum
  /-- The version of the analysis. -/
  version : Datum
  /-- The directories that could not be listed. -/
  skipped : List Datum

/-- The kind of a project. -/
structure Profile where
  /-- Its type. -/
  kind : Datum
  /-- Its primary language. -/
  language : Datum
  /-- Its frameworks. -/
  frameworks : List Datum
  /-- What builds it. -/
  buildTool : Datum
  /-- What installs its packages. -/
  packageManager : Datum
  /-- Its manifests. -/
  manifests : List Datum

/-- The facts about one file. -/
structure File where
  /-- Its path. -/
  path : Datum
  /-- Its size. -/
  size : Datum
  /-- Its extension. -/
  extension : Datum
  /-- Its language. -/
  language : Datum
  /-- The framework that its content hints at. -/
  frameworkHint : Datum
  /-- What it is for. -/
  purposeTags : List Datum
  /-- When it was last changed, in seconds. -/
  modified : Datum
  /-- When it was last changed, in nanoseconds. -/
  modifiedNs : Datum

/-- A directory with everything below it. -/
inductive Folder where
  /-- The name, the path and the purpose of the directory, its subdirectories, its own files, the
  number and the size of the files below it, and whether it could be listed. -/
  | node (name path purpose : Datum) (directories : List Folder) (files : List File)
      (fileCount size readable : Datum)

/-- The facts about one top-level directory. -/
structure Area where
  /-- What it is for. -/
  purpose : Datum
  /-- The number of files below it. -/
  fileCount : Datum
  /-- Their total size. -/
  size : Datum
  /-- The languages below it. -/
  languages : List Datum

/-- The structure of a project. -/
structure Outline where
  /-- The top-level directories by name. -/
  areas : Assoc String Area
  /-- The architecture patterns. -/
  patterns : List Datum
  /-- The naming conventions. -/
  conventions : List Datum

/-- The declared packages. -/
structure Packages where
  /-- Packages needed in production. -/
  production : List Datum
  /-- Packages needed in development only. -/
  development : List Datum
  /-- Packages that harden the project. -/
  hardening : List Datum

/-- A file or package of the graph. -/
structure Node where
  /-- What it is. -/
  kind : Datum
  /-- The language of a file. -/
  language : Datum
  /-- The names a file exports. -/
  exports : List Datum
  /-- The references a file holds. -/
  imports : List Datum
  /-- The version asked for of a package. -/
  version : Datum

/-- A reference. -/
structure Edge where
  /-- The file that holds it. -/
  source : Datum
  /-- What it means. -/
  target : Datum
  /-- The kind of reference. -/
  kind : Datum
  /-- The reference as it is written. -/
  reference : Datum
  /-- Whether nothing was found. -/
  unresolved : Datum

/-- The metrics of a project. -/
structure Figures where
  /-- The number of source files. -/
  totalFiles : Datum
  /-- The number of their lines. -/
  totalLines : Datum
  /-- The number of files by extension. -/
  histogram : Datum
  /-- The size class. -/
  complexity : Datum

/-- What to attend to. -/
structure Counsel where
  /-- Areas of attention. -/
  focusAreas : Datum
  /-- How far the project has come. -/
  developmentPhase : Datum
  /-- How much cleaning up is due. -/
  technicalDebt : Datum
  /-- What to do first. -/
  priority : Datum
  /-- The score in a word. -/
  qualityLevel : Datum
  /-- Further remarks. -/
  insights : Datum

end Snapshot

open Snapshot

/-- What is kept of a survey. -/
structure Snapshot where
  /-- What it is about. -/
  header : Header
  /-- The kind of project. -/
  profile : Profile
  /-- The files and directories. -/
  tree : Folder
  /-- The structure. -/
  outline : Outline
  /-- The declared packages. -/
  packages : Packages
  /-- The files and packages. -/
  nodes : Assoc String Node
  /-- The references. -/
  edges : List Edge
  /-- The metrics. -/
  figures : Figures
  /-- The score. -/
  score : Datum
  /-- All findings. -/
  findings : List Finding
  /-- The advice of the rules. -/
  suggestions : List Datum
  /-- The findings about security. -/
  security : List Finding
  /-- What to attend to. -/
  counsel : Counsel

namespace Snapshot

/-! ## Taking a snapshot -/

/-- Texts as values. -/
def texts (ss : List String) : List Datum := ss.map .text

namespace File

/-- The facts about a file. -/
def ofRecord (r : FileRecord) : File :=
  ⟨.text r.path, .nat r.size, .text r.extension, .text r.kind.language,
    Datum.ofText? r.kind.frameworkHint, texts r.kind.purposeTags, .real r.modified,
    .int r.modifiedNs⟩

end File

namespace Folder

mutual

/-- A directory with everything below it. -/
def ofDirectory : Directory → Folder
  | .node name path purpose directories files fileCount size readable =>
    .node (.text name) (.text path) (.text purpose) (ofDirectories directories)
      (files.map File.ofRecord) (.nat fileCount) (.nat size) (.bool readable)

/-- Several directories with everything below them. -/
def ofDirectories : List Directory → List Folder
  | [] => []
  | d :: ds => ofDirectory d :: ofDirectories ds

end

end Folder

/-- A file or package of the graph. -/
def Node.ofGraphNode (n : GraphNode) : Node :=
  ⟨.text n.kind, Datum.ofText? n.language, texts n.exports, texts n.imports,
    Datum.ofText? n.version⟩

/-- A reference. -/
def Edge.ofGraphEdge (e : GraphEdge) : Edge :=
  ⟨.text e.source, .text e.target, .text e.kind, .text e.reference, .bool e.unresolved⟩

/-- The facts about a top-level directory. -/
def Area.ofSummary (s : DirectorySummary) : Area :=
  ⟨.text s.purpose, .nat s.fileCount, .nat s.size, texts s.languages⟩

/-- The kind of a project. -/
def Profile.ofProfile (p : ProjectProfile) : Profile :=
  ⟨.text p.kind, .text p.language, texts p.frameworks, .text p.buildTool, .text p.packageManager,
    texts p.manifests⟩

/-- The structure of a project. -/
def Outline.ofLayout (l : Layout) : Outline :=
  ⟨l.directories.map fun (name, d) => (name, Area.ofSummary d), texts l.patterns,
    texts l.conventions⟩

/-- The declared packages. -/
def Packages.ofDependencies (d : Dependencies) : Packages :=
  ⟨texts d.production, texts d.development, texts d.security⟩

/-- The metrics. -/
def Figures.ofMetrics (m : Metrics) : Figures :=
  ⟨.int m.totalFiles, .int m.totalLines,
    .table (m.histogram.map fun (extension, n) => (extension, .int n)), .text m.complexity.text⟩

/-- What to attend to. -/
def Counsel.ofAdvice (a : Advice) : Counsel :=
  ⟨Datum.texts a.focusAreas, .text a.developmentPhase, .text a.technicalDebt,
    Datum.texts a.priority, .text a.qualityLevel, Datum.texts a.insights⟩

/-- The snapshot of a survey. -/
def ofSurvey (s : Survey) : Snapshot where
  header := ⟨.text s.header.name, .text s.header.root, .text s.header.analyzedAt,
    .text s.header.version, texts s.header.skipped⟩
  profile := Profile.ofProfile s.profile
  tree := Folder.ofDirectory s.tree
  outline := Outline.ofLayout s.layout
  packages := Packages.ofDependencies s.dependencies
  nodes := s.graph.nodes.map fun (key, n) => (key, Node.ofGraphNode n)
  edges := s.graph.edges.map Edge.ofGraphEdge
  figures := Figures.ofMetrics s.metrics
  score := .int s.verdict.score
  findings := s.verdict.findings
  suggestions := texts s.verdict.suggestions
  security := s.security
  counsel := Counsel.ofAdvice s.advice

/-! ## Laying out -/

/-- A file as a value. -/
def File.toDatum (f : File) : Datum :=
  .table [("path", f.path), ("size", f.size), ("extension", f.extension),
    ("kind", .table [("language", f.language), ("framework_hint", f.frameworkHint),
      ("purpose_tags", .list f.purposeTags)]),
    ("modified", f.modified), ("mtime_ns", f.modifiedNs)]

namespace Folder

mutual

/-- A directory as a value. -/
def toDatum : Folder → Datum
  | node name path purpose directories files fileCount size readable =>
    .table [("name", name), ("path", path), ("purpose", purpose),
      ("directories", .list (toData directories)), ("files", .list (files.map File.toDatum)),
      ("file_count", fileCount), ("size", size), ("readable", readable)]

/-- Directories as values. -/
def toData : List Folder → List Datum
  | [] => []
  | d :: ds => toDatum d :: toData ds

end

end Folder

/-- A top-level directory as a value. -/
def Area.toDatum (a : Area) : Datum :=
  .table [("purpose", a.purpose), ("file_count", a.fileCount), ("size", a.size),
    ("languages", .list a.languages)]

/-- A file or package as a value. -/
def Node.toDatum (n : Node) : Datum :=
  .table [("kind", n.kind), ("language", n.language), ("exports", .list n.exports),
    ("imports", .list n.imports), ("version", n.version)]

/-- A reference as a value. -/
def Edge.toDatum (e : Edge) : Datum :=
  .table [("source", e.source), ("target", e.target), ("kind", e.kind),
    ("reference", e.reference), ("unresolved", e.unresolved)]

/-- What an analysis was about, as a value. -/
def Header.toDatum (h : Header) : Datum :=
  .table [("name", h.name), ("root", h.root), ("analyzed_at", h.analyzedAt),
    ("version", h.version), ("skipped", .list h.skipped)]

/-- The kind of a project as a value. -/
def Profile.toDatum (p : Profile) : Datum :=
  .table [("type", p.kind), ("language", p.language), ("frameworks", .list p.frameworks),
    ("build_tool", p.buildTool), ("package_manager", p.packageManager),
    ("manifests", .list p.manifests)]

/-- The structure of a project as a value. -/
def Outline.toDatum (o : Outline) : Datum :=
  .table [("directories", .table (o.areas.map fun (name, a) => (name, a.toDatum))),
    ("patterns", .list o.patterns), ("conventions", .list o.conventions)]

/-- The declared packages as a value. -/
def Packages.toDatum (p : Packages) : Datum :=
  .table [("production", .list p.production), ("development", .list p.development),
    ("security", .list p.hardening)]

/-- The metrics as a value. -/
def Figures.toDatum (f : Figures) : Datum :=
  .table [("total_files", f.totalFiles), ("total_lines", f.totalLines),
    ("file_type_histogram", f.histogram), ("complexity", f.complexity)]

/-- What to attend to, as a value. -/
def Counsel.toDatum (c : Counsel) : Datum :=
  .table [("focus_areas", c.focusAreas), ("development_phase", c.developmentPhase),
    ("technical_debt", c.technicalDebt), ("priority", c.priority),
    ("quality_level", c.qualityLevel), ("insights", c.insights)]

/-- The parts of a snapshot by name. -/
def parts (s : Snapshot) : List (String × Datum) := [
  ("metadata", s.header.toDatum),
  ("project", s.profile.toDatum),
  ("tree", s.tree.toDatum),
  ("structure", s.outline.toDatum),
  ("dependencies", s.packages.toDatum),
  ("graph", .table [("nodes", .table (s.nodes.map fun (key, n) => (key, n.toDatum))),
    ("edges", .list (s.edges.map Edge.toDatum))]),
  ("metrics", s.figures.toDatum),
  ("quality", .table [("score", s.score), ("findings", .list (s.findings.map Finding.toDatum)),
    ("suggestions", .list s.suggestions)]),
  ("security", .list (s.security.map Finding.toDatum)),
  ("recommendations", s.counsel.toDatum)]

/-- A snapshot as a value. -/
def toDatum (s : Snapshot) : Datum := .table s.parts

end Snapshot

end ProjectSurvey
