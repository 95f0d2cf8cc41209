import ProjectSurvey.Data.Datum

/-!
# Findings and evidence

A `Finding` is one observation of a rule, an `Evidence` what the text of one source file yields:
its number of lines, its references and exports and the findings of the content rules. **A file
whose text was not read has evidence without lines**; it still counts as a file. Findings are kept
in files that anything may write, so what they say is an open value.
-/

namespace ProjectSurvey

/-- One observation. -/
structure Finding where
  /-- The rule that made it. -/
  ruleId : Datum
  /-- What it is about: `quality`, `security` or `performance`. -/
  category : Datum
  /-- How grave it is: `error`, `warning` or `info`. -/
  severity : Datum
  /-- What was seen. -/
  description : Datum
  /-- The file in which it was seen, if it was seen in one. -/
  file : Datum
  /-- The line on which it was seen, if it was seen on one. -/
  line : Datum

namespace Finding

/-- Whether the rule of a name made the observation. -/
def isOf (f : Finding) (id : String) : Bool := f.ruleId.equalsText id

/-- Whether an observation is about security. -/
def isSecurity (f : Finding) : Bool := f.category.equalsText "security"

/-- An observation as a value. -/
def toDatum (f : Finding) : Datum :=
  .table [("rule_id", f.ruleId), ("category", f.category), ("severity", f.severity),
    ("description", f.description), ("file", f.file), ("line", f.line)]

end Finding

/-- What the text of one source file yields. -/
structure Evidence where
  /-- The path of the file. -/
  path : String
  /-- Its number of lines, if its text was read. -/
  lines : Option Int
  /-- The modules it refers to. -/
  references : List String
  /-- The names it exports. -/
  exports : List String
  /-- What the content rules observed. -/
  findings : List Finding

end ProjectSurvey
