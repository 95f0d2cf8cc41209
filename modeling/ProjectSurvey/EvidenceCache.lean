import ProjectSurvey.Disk.Change
import ProjectSurvey.Evidence
import ProjectSurvey.Failure
import ProjectSurvey.FileRecord
import ProjectSurvey.Json.Reader
import ProjectSurvey.Json.Writer
import ProjectSurvey.Snapshot.Reader

/-!
# The evidence cache

Evidence kept from run to run, by the path of the file. **Evidence is used again only for a file of
the same size and time of change under the same rules**; what the rules are is a signature that the
caller gives. Entries are open values: a cache file that was damaged has entries that are never used
again, and one that is no cache at all is an empty cache.
-/

namespace ProjectSurvey

/-- Evidence as it was kept. -/
structure KeptEvidence where
  /-- The path of the file. -/
  path : String
  /-- Its number of lines, if its text was read. -/
  lines : Datum
  /-- The modules it refers to. -/
  references : List String
  /-- The names it exports. -/
  exports : List String
  /-- What the content rules observed. -/
  findings : List Finding

namespace KeptEvidence

/-- An entry of the given path as evidence, if it has the parts of one. -/
def ofEntry? (path : String) (entry : Assoc String Datum) : Option KeptEvidence :=
  let member (key : String) : Datum := (Assoc.get? key entry).getD .null
  let linesFit : Bool := match member "lines" with
    | .null | .int _ | .bool _ => true
    | _ => false
  match member "references", member "exports", member "findings" with
  | .list references, .list exports, .list findings =>
    if !linesFit then none
    else
      match findings.mapM Snapshot.findingOf with
      | .ok findings =>
        some ⟨path, member "lines", references.map Datum.plain, exports.map Datum.plain, findings⟩
      | .error _ => none
  | _, _, _ => none

/-- The evidence that was kept. -/
def evidence (k : KeptEvidence) : Evidence where
  path := k.path
  lines := match k.lines with
    | .int n => some n
    | .bool b => some (if b then 1 else 0)
    | _ => none
  references := k.references
  exports := k.exports
  findings := k.findings

end KeptEvidence

/-- Evidence by path, with how often it was found. -/
structure EvidenceCache where
  /-- The entries by path. -/
  entries : Assoc String (Assoc String Datum)
  /-- Whether something changed since the cache was read or written. -/
  dirty : Bool
  /-- How often evidence was found. -/
  hits : Nat
  /-- How often none was found. -/
  misses : Nat

namespace EvidenceCache

/-- A cache without entries. -/
def empty : EvidenceCache := ⟨[], false, 0, 0⟩

/-- The version of the layout of cache files. -/
def version : Int := 1

/-! ## Finding and keeping -/

/-- Whether an entry was made of a file as it is now, under the rules of a signature. -/
def isCurrent (record : FileRecord) (signature : String) (entry : Assoc String Datum) : Bool :=
  let member (key : String) : Datum := (Assoc.get? key entry).getD .null
  (member "signature").equalsText signature && (member "size").equalsInt record.size &&
    (member "mtime_ns").equalsInt record.modifiedNs

/-- The evidence for a file, if it is still good. -/
def find? (c : EvidenceCache) (record : FileRecord) (signature : String) : Option KeptEvidence :=
  match Assoc.get? record.path c.entries with
  | some entry =>
    if isCurrent record signature entry then KeptEvidence.ofEntry? record.path entry else none
  | none => none

/-- The evidence for a file, and the cache that has counted the question. -/
def get (c : EvidenceCache) (record : FileRecord) (signature : String) :
    Option KeptEvidence × EvidenceCache :=
  match c.find? record signature with
  | some k => (some k, { c with hits := c.hits + 1 })
  | none => (none, { c with misses := c.misses + 1 })

/-- The entry of evidence. -/
def entryOf (record : FileRecord) (signature : String) (e : Evidence) : Assoc String Datum := [
  ("signature", .text signature), ("size", .nat record.size), ("mtime_ns", .int record.modifiedNs),
  ("lines", match e.lines with
    | some n => .int n
    | none => .null),
  ("references", Datum.texts e.references), ("exports", Datum.texts e.exports),
  ("findings", .list (e.findings.map Finding.toDatum))]

/-- The cache with evidence kept for a file. -/
def store (c : EvidenceCache) (record : FileRecord) (signature : String) (e : Evidence) :
    EvidenceCache :=
  { c with
    entries := Assoc.insert record.path (entryOf record signature e) c.entries, dirty := true }

/-- The cache with entries for some paths only. -/
def prune (c : EvidenceCache) (keep : List String) : EvidenceCache :=
  let kept := c.entries.filter fun (path, _) => keep.contains path
  { c with entries := kept, dirty := c.dirty || kept.length ≠ c.entries.length }

/-- The cache without entries. -/
def clear (c : EvidenceCache) : EvidenceCache := { c with entries := [], dirty := true }

/-! ## On the disk -/

/-- A cache as a value. -/
def toDatum (c : EvidenceCache) : Datum :=
  .table [("version", .int version),
    ("entries", .table (c.entries.map fun (path, entry) => (path, .table entry)))]

/-- The text of a cache. -/
def text (c : EvidenceCache) : List Char := Json.pretty c.toDatum

/-- The cache that a value lays out; an empty one if it lays out none. -/
def ofDatum (d : Datum) : EvidenceCache :=
  match ((d.get? "version").getD .null).equalsInt version, d.get? "entries" with
  | true, some (.table entries) =>
    { empty with entries := entries.filterMap fun (path, entry) =>
        match entry with
        | .table members =>
          if Assoc.has "signature" members then some (path, members) else none
        | _ => none }
  | _, _ => empty

/-- The cache in the file at a path; an empty one if there is no path or no cache. -/
def load (disk : Entry) (path : Option String) : Except Failure EvidenceCache :=
  match path with
  | none => .ok empty
  | some path =>
    match disk.readText path with
    | .error (.refused .zero) => .error (.refused .zero path)
    | .error (.refused _) => .ok empty
    | .error (.undecodable f) => .error (.undecodable f)
    | .ok cs =>
      match Json.parse cs with
      | .error .malformed => .ok empty
      | .error f => .error (.unread f)
      | .ok d => .ok (ofDatum d)

/-- Writes a cache that has changed into the file at a path, if its integers can be shown. A cache
that was not written stays dirty. -/
def persist (c : EvidenceCache) (disk : Entry) (time : Int) (path : Option String) :
    EvidenceCache × Entry × Option Failure :=
  match c.dirty, path with
  | true, some path =>
    match disk.makeDirectories (Location.text (Path.components path).dropLast) with
    | (disk, some (f, place)) => (c, disk, some (.refused f place))
    | (disk, none) =>
      if c.toDatum.isShowable then
        match disk.writeText time path c.text with
        | (disk, some (f, place)) => (c, disk, some (.refused f place))
        | (disk, none) => ({ c with dirty := false }, disk, none)
      else (c, disk, some (.invalid Failure.unshowableText))
  | _, _ => (c, disk, none)

end EvidenceCache

end ProjectSurvey
