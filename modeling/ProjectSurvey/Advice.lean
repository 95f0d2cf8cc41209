import ProjectSurvey.Metrics
import ProjectSurvey.ProjectProfile
import ProjectSurvey.Rule.Engine

/-!
# Advice

What to attend to, derived from metrics, verdict and kind of project. The order is fixed: what the
frameworks suggest comes before what the findings suggest, and **`security` leads the priorities
whenever there is a security finding**. Nothing here depends on the order of the findings.
-/

namespace ProjectSurvey

/-- What to attend to in a project. -/
structure Advice where
  /-- Areas of attention, each once. -/
  focusAreas : List String
  /-- How far the project has come. -/
  developmentPhase : String
  /-- How much cleaning up is due. -/
  technicalDebt : String
  /-- What to do first, each once. -/
  priority : List String
  /-- The score in a word. -/
  qualityLevel : String
  /-- Remarks. -/
  insights : List String

namespace Advice

/-- The technical debt of a score. -/
def debtOf (score : Int) : String :=
  if score < 60 then "high" else if score < 80 then "medium" else "low"

/-- The phase of a project of the given size. -/
def phaseOf (m : Metrics) : String :=
  if m.totalFiles < 20 then "early" else if m.complexity = .high then "mature" else "maintenance"

/-- A score in a word. -/
def levelOf (score : Int) : String :=
  if 80 ≤ score then "excellent"
  else if 60 ≤ score then "good"
  else if 40 ≤ score then "fair"
  else "needs-improvement"

/-- Groups of frameworks and the areas to attend to with one of them. -/
def frameworkFocus : List (List String × List String) := [
  (["React", "Next.js", "Vue", "Nuxt", "Angular", "Svelte"],
    ["frontend performance", "SEO", "component design"]),
  (Tables.serverFrameworks, ["API design", "middleware", "security hardening"]),
  (["Django", "Flask", "FastAPI"], ["API design", "data validation"])]

/-- A list with one member if a condition holds. -/
def phraseIf (condition : Bool) (s : String) : List String := if condition then [s] else []

/-- Whether a rule has a finding. -/
def triggered (v : Verdict) (id : String) : Bool := v.findings.any fun f => f.isOf id

/-- The areas of attention. -/
def focusOf (v : Verdict) (security : List Finding) (p : ProjectProfile) : List String :=
  (frameworkFocus.flatMap fun (names, areas) =>
    if names.any fun n => p.frameworks.contains n then areas else []) ++
  phraseIf (!security.isEmpty) "security hardening" ++
  phraseIf (triggered v "missing-tests") "testing" ++
  phraseIf (triggered v "missing-documentation") "documentation" ++
  phraseIf (v.findings.any fun f => f.category.equalsText "performance") "performance"

/-- What to do first. -/
def priorityOf (m : Metrics) (v : Verdict) (security : List Finding) : List String :=
  phraseIf (!security.isEmpty) "security" ++
  phraseIf (v.score < 70) "code quality" ++
  phraseIf (triggered v "missing-tests") "test coverage" ++
  phraseIf (triggered v "missing-documentation") "documentation" ++
  phraseIf (m.complexity = .high) "refactoring"

/-- The remarks. -/
def insightsOf (m : Metrics) (v : Verdict) (p : ProjectProfile) : List String :=
  [if 80 ≤ v.score then "Code quality is good and the project is easy to maintain."
    else if 60 ≤ v.score then "Code quality is moderate; targeted cleanup is recommended."
    else "Code quality needs improvement before adding features."] ++
  phraseIf (m.complexity = .high) "The project is large; consider modular refactoring." ++
  phraseIf (p.kind = "generic") "No package manifest was found; dependency analysis is limited."

/-- The advice for a project. -/
def synthesize (m : Metrics) (v : Verdict) (security : List Finding) (p : ProjectProfile) :
    Advice where
  focusAreas := Text.distinct (focusOf v security p)
  developmentPhase := phaseOf m
  technicalDebt := debtOf v.score
  priority := Text.distinct (priorityOf m v security)
  qualityLevel := levelOf v.score
  insights := insightsOf m v p

end Advice

end ProjectSurvey
