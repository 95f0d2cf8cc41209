import ProjectSurvey.EvidenceCache
import ProjectSurvey.Reference.Extraction
import ProjectSurvey.Rule.Engine
import ProjectSurvey.Tables

/-!
# Gathering evidence

Evidence for every source file of a walk. **Where the cache has good evidence for a file, its text
is not looked at**; all other evidence is collected and kept. Without a cache everything is
collected.
-/

namespace ProjectSurvey

/-- The evidence in the text of a file; a file without text has none. -/
def Evidence.ofText (rules : List Rule) (record : FileRecord) : Option (List Char) → Evidence
  | none => ⟨record.path, none, [], [], []⟩
  | some text =>
    { path := record.path
      lines := some (Text.lineCount text)
      references := Reference.extract record.language text
      exports := Reference.exports record.language text
      findings := Engine.scanContent rules record text }

/-- What gathering evidence needs. -/
structure Gathering where
  /-- The lookup tables. -/
  tables : Tables
  /-- The rules. -/
  rules : List Rule
  /-- What the rules and the way of collecting are. -/
  signature : String
  /-- The text of a file, if it can be read. -/
  read : String → Option (List Char)

namespace Gathering

/-- Bumped whenever references or exports are extracted in another way. -/
def extractionVersion : Int := 1

/-- What is signed beside the rules, which call a file of so many lines oversized. -/
def signedValues (oversizedLines : Int) : List Datum :=
  [.int oversizedLines, .int extractionVersion]

/-- The signature of rules that call a file of so many lines oversized, if that number can be
shown. -/
def signatureOf? (rules : List Rule) (oversizedLines : Int) : Option String :=
  Engine.signature? rules (signedValues oversizedLines)

/-- The evidence for one file, and the cache afterwards. -/
def visit (g : Gathering) (cache : Option EvidenceCache) (record : FileRecord) :
    Evidence × Option EvidenceCache :=
  match cache with
  | none => (Evidence.ofText g.rules record (g.read record.path), none)
  | some c =>
    match c.get record g.signature with
    | (some kept, c) => (kept.evidence, some c)
    | (none, c) =>
      let e := Evidence.ofText g.rules record (g.read record.path)
      (e, some (c.store record g.signature e))

/-- The evidence for some files one after the other, and the cache afterwards. -/
def visitAll (g : Gathering) (cache : Option EvidenceCache) :
    List FileRecord → List (String × Evidence) × Option EvidenceCache
  | [] => ([], cache)
  | r :: rs =>
    let (e, cache) := g.visit cache r
    let (es, cache) := visitAll g cache rs
    ((r.path, e) :: es, cache)

/-- The evidence for the source files among some files, and the cache without entries for other
files. -/
def gather (g : Gathering) (cache : Option EvidenceCache) (records : List FileRecord) :
    List (String × Evidence) × Option EvidenceCache :=
  let (found, cache) := g.visitAll cache (records.filter fun r => g.tables.isCountable r.language)
  (found, cache.map fun c => c.prune (found.map Prod.fst))

end Gathering

end ProjectSurvey
