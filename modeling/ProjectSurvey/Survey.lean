import ProjectSurvey.Advice
import ProjectSurvey.Graph.Basic
import ProjectSurvey.Structure

/-!
# Surveys

The result of an analysis: everything that was found out about one project. **A survey is made fresh
by every run** and never changed; what is kept of it on the disk is a `Snapshot`.
-/

namespace ProjectSurvey

/-- What an analysis was about. -/
structure SurveyHeader where
  /-- The name of the project. -/
  name : String
  /-- Where the project is. -/
  root : String
  /-- When it was analysed. -/
  analyzedAt : String
  /-- The version of the analysis. -/
  version : String
  /-- The directories that could not be listed. -/
  skipped : List String

/-- The result of an analysis. -/
structure Survey where
  /-- What it is about. -/
  header : SurveyHeader
  /-- The kind of project. -/
  profile : ProjectProfile
  /-- The files and directories. -/
  tree : Directory
  /-- The structure. -/
  layout : Layout
  /-- The declared packages. -/
  dependencies : Dependencies
  /-- The references between files. -/
  graph : Graph
  /-- The metrics. -/
  metrics : Metrics
  /-- What the rules say. -/
  verdict : Verdict
  /-- The findings about security. -/
  security : List Finding
  /-- What to attend to. -/
  advice : Advice

end ProjectSurvey
