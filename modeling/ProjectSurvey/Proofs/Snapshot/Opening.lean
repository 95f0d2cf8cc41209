import ProjectSurvey.Proofs.Evidence.Opening
import ProjectSurvey.Proofs.Octets
import ProjectSurvey.Proofs.Snapshot.Strays
import ProjectSurvey.Snapshot.Load

/-!
# Opening a damaged snapshot

The file of a snapshot may hold anything. **What it holds counts as a snapshot or as none, unless it
is fatal** (`load_opens`), and three kinds of content are: octets that are no UTF-8, a text that
goes beyond the limits of the reader, and a value whose first part that is not in order stands in
the place of a table (`Strays`). A harmless text of a value with tables where they are asked for is
never fatal.
-/

namespace ProjectSurvey

namespace Snapshot

open EvidenceCache (IsHarmlessText readText_of_readOctets)

/-! ### Texts -/

/-- A misfit means that there is no snapshot unless a table is missing. -/
theorem meansAbsent_iff {m : Misfit} : m.meansAbsent = true ↔ m ≠ .noTable := by
  cases m <;> simp [Misfit.meansAbsent]

variable {cs : List Char} {d : Datum}

/-- Whether the value is a table makes no difference that reading it does not make. -/
theorem ofText_of_parse (hparse : Json.parse cs = .ok d) : ofText cs =
    match ofDatum d with
    | .ok s => .ok (some s)
    | .error m => if m.meansAbsent then .ok none else .error (.misfit m) := by
  unfold ofText
  rw [hparse]
  cases d with
  | table members => rfl
  | _ => rfl

/-- A text whose parts stray is refused for the missing table. -/
theorem ofText_of_strays (hparse : Json.parse cs = .ok d) (h : Strays d) :
    ofText cs = .error (.misfit .noTable) := by
  rw [ofText_of_parse hparse, ofDatum_eq_noTable_iff.mpr h]
  rfl

/-- A value that does not stray counts as the snapshot that it lays out, or as none. -/
theorem exists_ofText_of_not_strays (hparse : Json.parse cs = .ok d) (h : ¬ Strays d) :
    ∃ r, ofText cs = .ok r ∧ ∀ s, r = some s ↔ ofDatum d = .ok s := by
  rw [ofText_of_parse hparse]
  cases hd : ofDatum d with
  | ok s => exact ⟨some s, rfl, by simp⟩
  | error m =>
    have habsent : m.meansAbsent = true := by
      rw [meansAbsent_iff]
      rintro rfl
      exact h (ofDatum_eq_noTable_iff.mp hd)
    exact ⟨none, by simp [habsent], by simp⟩

/-! ### Files -/

/-- What comes of the octets of a file that should hold a snapshot. -/
structure ComesOf (octets : List UInt8) (x : Except Failure (Option Snapshot)) : Prop where
  /-- Octets that are no UTF-8 are fatal. -/
  undecodable : Text.Utf8.decode? octets = none →
    x = .error (.undecodable (Text.Utf8.fault octets))
  /-- A text that breaks a rule of the format counts as no snapshot. -/
  malformed : ∀ cs, Text.Utf8.decode? octets = some cs →
    Json.parse (Text.unifyLineEnds cs) = .error .malformed → x = .ok none
  /-- A text that goes beyond a limit of the reader is fatal. -/
  unread : ∀ cs f, Text.Utf8.decode? octets = some cs →
    Json.parse (Text.unifyLineEnds cs) = .error f → f ≠ .malformed → x = .error (.unread f)
  /-- A value with a part that is first not in order and stands in the place of a table is fatal. -/
  strays : ∀ cs d, Text.Utf8.decode? octets = some cs →
    Json.parse (Text.unifyLineEnds cs) = .ok d → Strays d → x = .error (.misfit .noTable)
  /-- Any other value counts as the snapshot that it lays out, or as none. -/
  read : ∀ cs d, Text.Utf8.decode? octets = some cs →
    Json.parse (Text.unifyLineEnds cs) = .ok d → ¬ Strays d →
      ∃ r, x = .ok r ∧ ∀ s, r = some s ↔ ofDatum d = .ok s
  /-- Nothing is fatal about a harmless text whose value has tables where they are asked for. -/
  harmless : ∀ cs, Text.Utf8.decode? octets = some cs → IsHarmlessText (Text.unifyLineEnds cs) →
    (∀ d, Json.parse (Text.unifyLineEnds cs) = .ok d → IsTabled d) → ∃ r, x = .ok r

variable {disk : Entry} {path : String} {octets : List UInt8}

/-- The load of a file that decodes is what its text gives. -/
theorem load_of_decode? (hread : disk.readOctets path = .ok octets) {cs : List Char}
    (hdecode : Text.Utf8.decode? octets = some cs) :
    load disk path = ofText (Text.unifyLineEnds cs) := by
  unfold load
  rw [readText_of_readOctets hread, hdecode]

/-- **A file counts as a snapshot or as none, unless its content is fatal.** -/
theorem load_opens (hread : disk.readOctets path = .ok octets) :
    ComesOf octets (load disk path) where
  undecodable hdecode := by
    unfold load
    rw [readText_of_readOctets hread, hdecode]
  malformed cs hdecode hparse := by
    rw [load_of_decode? hread hdecode, ofText, hparse]
  unread cs f hdecode hparse hf := by
    rw [load_of_decode? hread hdecode, ofText, hparse]
    cases f with
    | malformed => exact absurd rfl hf
    | _ => rfl
  strays cs d hdecode hparse h := by
    rw [load_of_decode? hread hdecode, ofText_of_strays hparse h]
  read cs d hdecode hparse h := by
    rw [load_of_decode? hread hdecode]
    exact exists_ofText_of_not_strays hparse h
  harmless cs hdecode hharmless htabled := by
    rw [load_of_decode? hread hdecode]
    cases hparse : Json.parse (Text.unifyLineEnds cs) with
    | error f =>
      obtain rfl := hharmless.eq_malformed hparse
      exact ⟨none, by rw [ofText, hparse]⟩
    | ok d =>
      obtain ⟨r, hr, -⟩ := exists_ofText_of_not_strays hparse (htabled d hparse).not_strays
      exact ⟨r, hr⟩

/-- The text of a snapshot of which most is missing. -/
def sparseText : List Char := "\x7b\"metadata\": \x7b\x7d\x7d".toList

/-- The text of a snapshot in whose tree a number stands for a file. -/
def strayText : List Char :=
  ["\x7b\"metadata\": \x7b\"name\": 0, \"root\": 0, ", "\"analyzed_at\": 0, \"version\": 0\x7d, ",
    "\"project\": \x7b\x7d, \"structure\": 0, ", "\"dependencies\": 0, \"graph\": 0, ",
    "\"quality\": 0, \"recommendations\": 0, ", "\"tree\": \x7b\"name\": 0, \"path\": 0, ",
    "\"purpose\": 0, \"files\": [7]\x7d\x7d"].flatMap String.toList

/-- A disk with some octets in the file of a snapshot. -/
def snapshotDisk (octets : List UInt8) : Entry := .ofEntries [("s", .file octets 7)]

/-- The file of the example holds the octets. -/
theorem readOctets_snapshotDisk (octets : List UInt8) :
    (snapshotDisk octets).readOctets "/s" = .ok octets := rfl

/-- The sparse snapshot counts as one or as none. -/
theorem load_opens_sparseText :
    (snapshotDisk (Text.Utf8.encode sparseText)).readOctets "/s" =
        .ok (Text.Utf8.encode sparseText) ∧
      ∃ r, load (snapshotDisk (Text.Utf8.encode sparseText)) "/s" = .ok r := by
  have hread := readOctets_snapshotDisk (Text.Utf8.encode sparseText)
  have hdecode : Text.Utf8.decode? (Text.Utf8.encode sparseText) = some sparseText := by
    decide
  have hparse : Json.parse (Text.unifyLineEnds sparseText) =
      .ok (.table [("metadata", .table [])]) := rfl
  have hharmless : IsHarmlessText (Text.unifyLineEnds sparseText) :=
    EvidenceCache.isHarmlessText_of_length (by decide)
  refine ⟨hread, (load_opens hread).harmless _ hdecode hharmless ?_⟩
  intro d hd
  obtain rfl := Except.ok.inj (hparse.symm.trans hd)
  constructor <;> simp [Datum.get?, Assoc.get?]

/-- **One octet that begins no character is fatal, and so is a number in the place of a file.** -/
theorem load_strayText :
    (¬ ∃ r, load (snapshotDisk [0xff]) "/s" = .ok r) ∧
      ¬ ∃ r, load (snapshotDisk (Text.Utf8.encode strayText)) "/s" = .ok r := by
  constructor
  · have hload : load (snapshotDisk [0xff]) "/s" =
        .error (.undecodable (Text.Utf8.fault [0xff])) := rfl
    simp [hload]
  · have hprinted : strayText.all Text.isPrinted = true := by decide +kernel
    have hkept : ∀ c ∈ strayText, Text.IsKept c := fun c hc =>
      Text.isKept_of_isPrinted (List.all_eq_true.mp hprinted c hc)
    have hfails : (ofText strayText).toBool = false := by decide +kernel
    rw [load_of_decode? (readOctets_snapshotDisk _) (Text.decode?_encode hkept),
      Text.unifyLineEnds_eq_self hkept]
    rintro ⟨r, hr⟩
    rw [hr] at hfails
    cases hfails

end Snapshot

end ProjectSurvey
