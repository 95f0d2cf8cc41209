import ProjectSurvey.FileRecord
import ProjectSurvey.Path
import ProjectSurvey.Pattern.Basic
import ProjectSurvey.Tables

/-!
# Directory structure and naming

A report on the top level of a directory tree: what each directory is for, which architecture
patterns the set of names shows, and which naming conventions the files follow. **Every convention
tied for the most files is reported**; one name may follow several. Directory names count without
regard to case.
-/

namespace ProjectSurvey

/-- The facts about one top-level directory. -/
structure DirectorySummary where
  /-- What it is for. -/
  purpose : String
  /-- The number of files below it. -/
  fileCount : Nat
  /-- Their total size. -/
  size : Nat
  /-- The source languages below it, sorted. -/
  languages : List String

/-- The structure of a project. -/
structure Layout where
  /-- The top-level directories by name. -/
  directories : Assoc String DirectorySummary
  /-- The architecture patterns. -/
  patterns : List String
  /-- The naming conventions. -/
  conventions : List String

namespace Layout

open Pattern

/-- A name that starts with a character of one set and goes on with characters of another. -/
def shaped (first rest : CharSet) : Pattern := textStart ++ char first ++ many rest ++ textEnd

/-- Lower-case ASCII letters and digits. -/
def lowerOrDigit : CharSet := CharSet.or (CharSet.span 'a' 'z') (CharSet.span '0' '9')

/-- The naming conventions in the order in which they are reported. -/
def conventionTable : List (String × Pattern) := [
  ("camelCase", shaped (CharSet.span 'a' 'z') CharSet.alnum),
  ("kebab-case", shaped (CharSet.span 'a' 'z') (CharSet.or lowerOrDigit (CharSet.only '-'))),
  ("snake_case", shaped (CharSet.span 'a' 'z') (CharSet.or lowerOrDigit (CharSet.only '_'))),
  ("PascalCase", shaped (CharSet.span 'A' 'Z') CharSet.alnum)]

/-- The name of a file without directory and extension. -/
def baseName (r : FileRecord) : String := (Path.splitExtension (Path.lastSegment r.path)).1

/-- How many files follow a convention. -/
def followers (p : Pattern) (files : List FileRecord) : Nat :=
  files.countP fun r => (p.atStart? (baseName r).toList).isSome

/-- The conventions tied for the most files; none if no file follows any. -/
def conventionsOf (tree : Directory) : List String :=
  let counts := conventionTable.map fun (name, p) => (name, followers p tree.allFiles)
  let best := (counts.map Prod.snd).foldl max 0
  if best = 0 then [] else (counts.filter fun c => c.2 == best).map Prod.fst

/-- The architecture patterns whose directories are all present, each label once. -/
def patternsOf (t : Tables) (names : List String) : List String :=
  let present := names.map Text.lowered
  Text.distinct ((t.architecturePatterns.filter fun p =>
    p.names.all fun n => present.contains n).map Labelled.label)

/-- The facts about one directory. -/
def summarize (t : Tables) (d : Directory) : DirectorySummary :=
  let languages := (d.allFiles.map FileRecord.language).filter t.isCountable
  ⟨d.purpose, d.fileCount, d.size, Text.sorted (Text.distinct languages)⟩

/-- The structure of a tree. -/
def ofTree (t : Tables) (tree : Directory) : Layout :=
  let directories := tree.directories.foldl (fun s d =>
    Assoc.insert d.name (summarize t d) s) []
  ⟨directories, patternsOf t (Assoc.keys directories), conventionsOf tree⟩

end Layout

end ProjectSurvey
