import ProjectSurvey.Digest.Sha256
import ProjectSurvey.Rule.Basic
import ProjectSurvey.Text.Utf8
import ProjectSurvey.Data.Datum

/-!
# Applying rules

The content rules look at one file at a time and leave their findings in its evidence; `evaluate`
puts these together with the findings of the project rules into a `Verdict`. **Each rule with a
finding costs its penalty once**, however many findings it has, and the score stays between 0 and
100. Findings come rule by rule in the order of the table, those of one content rule by path.
-/

namespace ProjectSurvey

/-- What the rules say about a project. -/
structure Verdict where
  /-- From 0 to 100. -/
  score : Int
  /-- All findings. -/
  findings : List Finding
  /-- The advice of the rules with findings, each once. -/
  suggestions : List String

namespace Verdict

/-- The findings about security. -/
def security (v : Verdict) : List Finding := v.findings.filter Finding.isSecurity

end Verdict

namespace Engine

/-- A number brought between 0 and 100. -/
def clampScore (n : Int) : Int := max 0 (min 100 n)

/-- The findings of the content rules that apply to a file, in the order of the table. -/
def scanContent (rules : List Rule) (record : FileRecord) (text : List Char) : List Finding :=
  (rules.filter fun r => r.appliesTo record).filterMap fun r => r.findingIn? record.path text

/-- The findings in all evidence, by path. -/
def contentFindings (evidence : Assoc String Evidence) : List Finding :=
  (evidence.mergeSort fun a b => decide (a.1 ≤ b.1)).flatMap fun (_, e) => e.findings

/-- The findings of one rule. -/
def findingsOf (context : ProjectContext) (inFiles : List Finding) (r : Rule) : List Finding :=
  if r.isContent then inFiles.filter fun f => f.isOf r.id else r.projectFindings context

/-- The verdict of a rule table on a project. -/
def evaluate (rules : List Rule) (context : ProjectContext) (evidence : Assoc String Evidence) :
    Verdict :=
  let inFiles := contentFindings evidence
  let perRule := rules.map fun r => (r, findingsOf context inFiles r)
  let triggered := perRule.filter fun (_, fs) => !fs.isEmpty
  { score := clampScore (100 - (triggered.map fun (r, _) => r.info.penalty).sum)
    findings := triggered.flatMap Prod.snd
    suggestions := Text.distinct (triggered.map fun (r, _) => r.info.suggestion) }

/-- What a content rule contributes to the signature. -/
def signatureText : Rule → List Char
  | .content i languages _ _ =>
    (i.id ++ ":" ++ i.category ++ ":" ++ i.severity ++ ":").toList ++
      (Datum.texts (Text.sorted (Text.distinct languages))).literal
  | .project .. => []

/-- The content rules and some further values in words. The checks themselves are not told. -/
def signedText (rules : List Rule) (extra : List Datum) : List Char :=
  rules.flatMap signatureText ++ extra.flatMap Datum.literal

/-- A fingerprint of the content rules and some further values, if these can be shown. -/
def signature? (rules : List Rule) (extra : List Datum) : Option String :=
  if Datum.areShowable extra then some (Sha256.hash (Text.Utf8.encode (signedText rules extra)))
  else none

end Engine

end ProjectSurvey
