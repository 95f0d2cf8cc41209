import ProjectSurvey.Data.Assoc

/-!
# What a manifest declares

The facts read from one manifest or lockfile: the packages it depends on in production and in
development, its scripts, and a few yes-or-no facts. **A manifest that could not be read is the
empty one**, so that its presence still counts.
-/

namespace ProjectSurvey

/-- The facts of one manifest. -/
structure Manifest where
  /-- Its file name. -/
  name : String
  /-- Packages with the versions asked for. -/
  production : Assoc String String
  /-- Packages for development only. -/
  development : Assoc String String
  /-- Named scripts. -/
  scripts : Assoc String String
  /-- Facts that hold or do not. -/
  flags : Assoc String Bool

namespace Manifest

/-- A manifest that declares nothing. -/
def blank (name : String) : Manifest := ⟨name, [], [], [], []⟩

/-- All packages: those for development first, a production version winning over a development
version of the same package. -/
def allDependencies (m : Manifest) : Assoc String String :=
  Assoc.update (Assoc.ofPairs m.development) m.production

/-- Whether a fact is stated and holds. -/
def holds (m : Manifest) (flag : String) : Bool := (Assoc.get? flag m.flags).getD false

end Manifest

/-- The manifests of a project by file name, in the order in which they were found. -/
abbrev Manifests := Assoc String Manifest

end ProjectSurvey
