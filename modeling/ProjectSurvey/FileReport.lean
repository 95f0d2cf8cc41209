import ProjectSurvey.Advice
import ProjectSurvey.Classification
import ProjectSurvey.Number.Shortest
import ProjectSurvey.Reference.Extraction
import ProjectSurvey.Snapshot

/-!
# Report on a single file

Line kinds, an estimate of complexity, declared names, references, findings, risk and score of one
source text. **Every content rule of the language applies, also to test files**, unlike in a run
over a project. The report on a text is a function of the facts about its file and of its
characters; opening the file is left to `Disk`.
-/

namespace ProjectSurvey

open Pattern

/-- The lines of a text by kind. -/
structure LineKinds where
  /-- All lines. -/
  total : Nat
  /-- Lines of code. -/
  code : Nat
  /-- Lines that start like a comment. -/
  comment : Nat
  /-- Lines with nothing but blanks. -/
  blank : Nat
  deriving DecidableEq

namespace LineKinds

/-- How comment lines start in a language. -/
def commentStarts (language : String) : List String :=
  if ["javascript", "typescript", "c", "cpp", "java", "go", "rust"].contains language then
    ["//", "/*", "*"]
  else if language = "vue" ∨ language = "svelte" then ["//", "/*", "*", "<!--"]
  else if language = "php" then ["//", "/*", "*", "#"]
  else if language = "python" ∨ language = "ruby" then ["#"]
  else []

/-- Adds one line. -/
def add (starts : List String) (k : LineKinds) (line : List Char) : LineKinds :=
  let bare := Text.strip line
  let k := { k with total := k.total + 1 }
  if bare.isEmpty then { k with blank := k.blank + 1 }
  else if Text.startsWithAny starts bare then { k with comment := k.comment + 1 }
  else { k with code := k.code + 1 }

/-- The lines of a text by kind. -/
def ofText (text : List Char) (language : String) : LineKinds :=
  (Text.lines text).foldl (add (commentStarts language)) ⟨0, 0, 0, 0⟩

/-- The share of comment lines in thousandths. -/
def commentThousandths (k : LineKinds) : Nat :=
  if k.total = 0 then 0
  else ((Binary64.ofRatio false k.comment k.total).roundedUnits? 3).getD 0

/-- The share of comment lines. -/
def commentRatio (k : LineKinds) : Binary64 := Binary64.ofDecimal false k.commentThousandths (-3)

end LineKinds

/-! ## Patterns of source text -/

/-- A place where the course of a program branches. -/
def decisionPoint : Pattern :=
  (wordEdge ++ oneOf ["if", "elif", "elseif", "for", "foreach", "while", "case", "catch",
    "except"] ++ wordEdge) ||| oneOf ["&&", "||"] |||
  (notAfter (CharSet.only '?') ++ lit "?" ++ notBefore (CharSet.anyOf "?.:"))

/-- One plus the number of places where a text branches. -/
def cyclomaticComplexity (text : List Char) : Nat := 1 + decisionPoint.count text

/-- A name that may hold dollar signs. -/
def dollarName : Pattern :=
  char (CharSet.or CharSet.letter (CharSet.anyOf "_$")) ++
    every (CharSet.or CharSet.word (CharSet.only '$'))

/-- A name of letters, digits and underscores. -/
def plainName : Pattern :=
  char (CharSet.or CharSet.letter (CharSet.only '_')) ++ every CharSet.word

/-- The declaration of a function. -/
def functionName : Pattern :=
  (wordEdge ++ lit "function" ++ gap ++ group 1 dollarName) |||
  (wordEdge ++ oneOf ["const", "let", "var"] ++ gap ++ group 2 dollarName ++ blanks ++ lit "=" ++
    blanks ++ opt (lit "async" ++ blanks) ++
    ((lit "function" ++ wordEdge) |||
      (lit "(" ++ every (CharSet.noneOf ")") ++ lit ")" ++ blanks ++ lit "=>"))) |||
  (lineStart ++ blanks ++
    ((opt (lit "async" ++ gap) ++ lit "def" ++ gap ++ group 3 plainName) |||
      (lit "fn" ++ gap ++ group 4 plainName) |||
      (lit "func" ++ gap ++ opt (lit "(" ++ every (CharSet.noneOf ")") ++ lit ")" ++ blanks) ++
        group 5 plainName)))

/-- The declaration of a class. -/
def className : Pattern :=
  lineStart ++ blanks ++ opt (lit "export" ++ gap) ++ opt (lit "default" ++ gap) ++
    opt (oneOf ["abstract", "final"] ++ gap) ++ lit "class" ++ gap ++ group 1 dollarName

/-- The functions that a text declares, each once. -/
def declaredFunctions (text : List Char) : List String :=
  Text.distinct ((functionName.findAll text).map fun m =>
    String.ofList (m.firstGroup [1, 2, 3, 4, 5]))

/-- The classes that a text declares, each once. -/
def declaredClasses (text : List Char) : List String :=
  Text.distinct (Reference.groupsOf className 1 text)

/-! ## Risk and score -/

/-- Rules whose errors make a file's risk critical. -/
def criticalRules : List String := ["code-injection", "hardcoded-secret", "sql-injection"]

/-- The risk that some findings add up to. -/
def riskLevel (findings : List Finding) : String :=
  let security := findings.filter Finding.isSecurity
  if security.any fun f => criticalRules.any f.isOf && f.severity.equalsText "error" then "critical"
  else if security.any fun f => f.severity.equalsText "error" then "high"
  else if !security.isEmpty || findings.any (fun f => f.severity.equalsText "warning") then "medium"
  else "low"

/-- The penalties of the content rules by id; of several rules with one id the last one counts. -/
def penalties (rules : List Rule) : Assoc String Int :=
  Assoc.ofPairs ((rules.filter Rule.isContent).map fun r => (r.id, r.info.penalty))

/-- What few comments cost. -/
def commentCost (k : LineKinds) : Int :=
  if k.commentThousandths < 100 then 25 else if k.commentThousandths < 200 then 10 else 0

/-- What high complexity costs. -/
def complexityCost (complexity : Nat) : Int :=
  if 50 < complexity then 30 else if 20 < complexity then 15 else 0

/-- The score of a file: 100 less what its comments, its complexity and each rule with a finding
cost. -/
def fileScore (k : LineKinds) (complexity : Nat) (rules : List Rule) (findings : List Finding) :
    Int :=
  let triggered := Text.distinct (findings.filterMap fun f => f.ruleId.text?)
  let costs := triggered.map fun id => (Assoc.get? id (penalties rules)).getD 0
  Engine.clampScore (100 - commentCost k - complexityCost complexity - costs.sum)

/-! ## The report -/

/-- The report on one file. -/
structure FileReport where
  /-- Its path as it is shown. -/
  path : String
  /-- Its language. -/
  language : String
  /-- Its size in octets. -/
  size : Nat
  /-- Its lines by kind. -/
  lines : LineKinds
  /-- One plus its decision points. -/
  complexity : Nat
  /-- The functions it declares. -/
  functions : List String
  /-- The classes it declares. -/
  classes : List String
  /-- The modules it refers to. -/
  references : List String
  /-- What the content rules observed. -/
  findings : List Finding
  /-- The risk these add up to. -/
  riskLevel : String
  /-- From 0 to 100. -/
  score : Int
  /-- The score in a word. -/
  qualityLevel : String

namespace FileReport

/-- The report on a text, given the facts about the file that holds it. -/
def ofRecord (rules : List Rule) (r : FileRecord) (text : List Char) : FileReport :=
  let findings := (rules.filter fun rule => rule.speaks r.language).filterMap fun rule =>
    rule.findingIn? r.path text
  let lines := LineKinds.ofText text r.language
  let complexity := cyclomaticComplexity text
  let score := fileScore lines complexity rules findings
  { path := r.path
    language := r.language
    size := r.size
    lines := lines
    complexity := complexity
    functions := declaredFunctions text
    classes := declaredClasses text
    references := Reference.extract r.language text
    findings := findings
    riskLevel := ProjectSurvey.riskLevel findings
    score := score
    qualityLevel := Advice.levelOf score }

/-- Lines by kind as a value. -/
def linesDatum (k : LineKinds) : Datum :=
  .table [("total", .nat k.total), ("code", .nat k.code), ("comment", .nat k.comment),
    ("blank", .nat k.blank), ("comment_ratio", .real k.commentRatio)]

/-- A report as a value. -/
def toDatum (r : FileReport) : Datum :=
  .table [("path", .text r.path), ("language", .text r.language), ("size", .nat r.size),
    ("lines", linesDatum r.lines), ("complexity", .nat r.complexity),
    ("functions", Datum.texts r.functions), ("classes", Datum.texts r.classes),
    ("references", Datum.texts r.references),
    ("findings", .list (r.findings.map Finding.toDatum)),
    ("risk_level", .text r.riskLevel), ("score", .int r.score),
    ("quality_level", .text r.qualityLevel)]

end FileReport

end ProjectSurvey
