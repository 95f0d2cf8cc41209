import ProjectSurvey.FileRecord
import ProjectSurvey.Evidence
import ProjectSurvey.Tables
import ProjectSurvey.Text.Lines

/-!
# Code metrics

How many source files and lines a project has, how its files spread over extensions, and a coarse
complexity in three steps. **Only countable files count as source**, but every file is in the
histogram; a file whose text was not read adds no lines.
-/

namespace ProjectSurvey

/-- Coarse size of a project. -/
inductive Complexity where
  /-- Few files and few lines. -/
  | low
  /-- Neither low nor high. -/
  | medium
  /-- Many files and many lines. -/
  | high
  deriving DecidableEq, Repr

namespace Complexity

/-- The word for a complexity. -/
def text : Complexity → String
  | low => "low"
  | medium => "medium"
  | high => "high"

/-- The complexity of a word. -/
def ofText? : String → Option Complexity
  | "low" => some low
  | "medium" => some medium
  | "high" => some high
  | _ => none

/-- Low below 50 files and 5000 lines, high from 200 files and 20000 lines on. -/
def classify (files lines : Int) : Complexity :=
  if files < 50 ∧ lines < 5000 then low
  else if 200 ≤ files ∧ 20000 ≤ lines then high
  else medium

end Complexity

/-- The metrics of a project. -/
structure Metrics where
  /-- The number of source files. -/
  totalFiles : Int
  /-- The number of their lines. -/
  totalLines : Int
  /-- The number of files by extension, in the order of the extensions. -/
  histogram : Assoc String Int
  /-- The size class. -/
  complexity : Complexity

namespace Metrics

/-- Where files without extension are counted. -/
def noExtension : String := "(none)"

/-- One more file of an extension. -/
def tally (h : Assoc String Int) (r : FileRecord) : Assoc String Int :=
  let key := if r.extension = "" then noExtension else r.extension
  Assoc.insert key ((Assoc.get? key h).getD 0 + 1) h

/-- The metrics of files with what was found in them. -/
def measure (t : Tables) (records : List FileRecord) (evidence : Assoc String Evidence) :
    Metrics :=
  let sources := records.filter fun r => t.isCountable r.language
  let lines := sources.map fun r => ((Assoc.get? r.path evidence).bind Evidence.lines).getD 0
  let histogram := (records.foldl tally []).mergeSort fun a b => decide (a.1 ≤ b.1)
  let files : Int := sources.length
  ⟨files, lines.sum, histogram, Complexity.classify files lines.sum⟩

end Metrics

end ProjectSurvey
