import ProjectSurvey.Workspace

/-!
# A first configuration

The configuration file that a project is given to start with: every setting at its usual value.
**A configuration that is there is never overwritten.**
-/

namespace ProjectSurvey.Configuration

/-- The lines of a first configuration. -/
def starterLines : List String := [
  "# devassist configuration",
  "analysis:",
  "  max_depth: 4",
  "  max_file_size: 1048576",
  "  ignore: []",
  "  exclude_paths: []",
  "  use_gitignore: true",
  "rules:",
  "  disabled: []",
  "  oversized_file_lines: 500",
  "output:",
  "  directory: .devassist"]

/-- The text of a first configuration. -/
def starterText : String := String.join (starterLines.map fun line => line ++ "\n")

/-- Writes a first configuration into a project that has none, and gives its path. -/
def writeStarter (root : Location) : Work (Option String) := do
  let path := Path.join root.text fileName
  let w ← get
  match w.disk.existsAt path with
  | .error f => throw (.refused f path)
  | .ok true => pure none
  | .ok false =>
    Work.change fun disk => disk.writeText w.time path starterText.toList
    pure (some path)

end ProjectSurvey.Configuration
