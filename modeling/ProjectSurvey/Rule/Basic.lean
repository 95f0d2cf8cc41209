import ProjectSurvey.Evidence
import ProjectSurvey.FileRecord
import ProjectSurvey.Manifest
import ProjectSurvey.Metrics
import ProjectSurvey.ProjectProfile
import ProjectSurvey.Rule.Checks

/-!
# Rules

A rule is a description of a problem with a check that looks for it, in the text of one file or in
the project as a whole. **A check may break down**; that is a value of its result, and what follows
from it is decided by the engine. Rules come from outside too, so their ids, categories and
severities are open vocabularies.
-/

namespace ProjectSurvey

/-- What a rule says about itself. -/
structure RuleInfo where
  /-- Its name. -/
  id : String
  /-- What it is about. -/
  category : String
  /-- How grave a finding is. -/
  severity : String
  /-- What a finding costs. -/
  penalty : Int
  /-- The problem. -/
  description : String
  /-- The advice. -/
  suggestion : String

/-- What the checks of a project see. -/
structure ProjectContext where
  /-- The names of the files at the root. -/
  rootFiles : List String
  /-- All files. -/
  records : List FileRecord
  /-- The tree that holds them. -/
  tree : Directory
  /-- The kind of project. -/
  profile : ProjectProfile
  /-- The manifests. -/
  manifests : Manifests
  /-- The metrics. -/
  metrics : Metrics
  /-- The text of the root's `.gitignore`, if it can be read. -/
  ignoreText : Option (List Char)
  /-- The lookup tables. -/
  tables : Tables
  /-- The lower-case names of the declared packages. -/
  packages : List String

/-- A rule. -/
inductive Rule where
  /-- A rule about the text of one file. It applies to files of its languages (all if it names
  none), and not to test files if it skips them. -/
  | content (info : RuleInfo) (languages : List String) (skipsTests : Bool)
      (check : List Char → Outcome)
  /-- A rule about the project as a whole; no result means that the check broke down. -/
  | project (info : RuleInfo) (check : ProjectContext → Option (List Sighting))

namespace RuleInfo

/-- The finding that a sighting gives rise to. -/
def finding (i : RuleInfo) (s : Sighting) : Finding where
  ruleId := .text i.id
  category := .text i.category
  severity := .text i.severity
  description := .text <|
    match s.detail with
    | some d => if d = "" then i.description else i.description ++ ": " ++ d
    | none => i.description
  file := Datum.ofText? s.file
  line := Datum.ofNat? s.line

end RuleInfo

namespace Rule

/-- What the rule says about itself. -/
def info : Rule → RuleInfo
  | content i _ _ _ => i
  | project i _ => i

/-- The name of the rule. -/
def id (r : Rule) : String := r.info.id

/-- Whether a rule is about the text of files. -/
def isContent : Rule → Bool
  | content .. => true
  | project .. => false

/-- Whether a content rule has a say about files of a language. -/
def speaks (language : String) : Rule → Bool
  | content _ languages _ _ => languages.isEmpty || languages.contains language
  | project .. => false

/-- Whether a content rule applies to a file. -/
def appliesTo (record : FileRecord) (r : Rule) : Bool :=
  r.speaks record.language &&
    match r with
    | content _ _ skipsTests _ => !(skipsTests && record.kind.isTest)
    | project .. => false

/-- Whether a rule applies to a file is a matter of its language and of whether it holds tests. -/
theorem appliesTo_congr {record record' : FileRecord}
    (hlanguage : record.language = record'.language)
    (htest : record.kind.isTest = record'.kind.isTest) (r : Rule) :
    r.appliesTo record = r.appliesTo record' := by
  unfold appliesTo
  rw [hlanguage, htest]

/-- The finding of a content rule in the text of a file. A check that breaks down finds nothing. -/
def findingIn? (path : String) (text : List Char) : Rule → Option Finding
  | content i _ _ check =>
    match check text with
    | .seen s => some (i.finding { s with file := some path })
    | _ => none
  | project .. => none

/-- The findings of a project rule. A check that breaks down finds nothing. -/
def projectFindings (context : ProjectContext) : Rule → List Finding
  | content .. => []
  | project i check => ((check context).getD []).map i.finding

end Rule

end ProjectSurvey
