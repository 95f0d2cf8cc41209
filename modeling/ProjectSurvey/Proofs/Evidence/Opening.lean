import Mathlib.Data.List.Forall2
import ProjectSurvey.EvidenceCache
import ProjectSurvey.Proofs.Json.Nesting

/-!
# Opening a damaged cache

The file of an evidence cache may hold anything. **What a damaged file does to a cache is to empty
it, unless it is fatal** (`load_answers`): a text that is cut off, foreign or of another version
gives no entries, and entries of any other shape give no evidence. Three kinds of content are fatal
all the same: octets that are no UTF-8, brackets that nest too deeply, and integers of too many
digits.

An opened cache answers every question with nothing or with evidence for the file in question, in
whatever order the questions come (`askAll_eq`).
-/

namespace ProjectSurvey

namespace EvidenceCache

/-! ### Content that is not fatal -/

/-- Whether no part of a text is fatal: its brackets nest no deeper than the reader goes, and it
holds no integer of more digits than it takes. -/
def IsHarmlessText (cs : List Char) : Prop :=
  ¬ Json.NestsBeyond Json.nestingLimit cs ∧
    ∀ count, Json.HoldsDigits count cs → count ≤ Text.digitLimit

/-- Whether what a file holds is not fatal to a cache. -/
def IsHarmless (octets : List UInt8) : Prop :=
  ∃ cs, Text.Utf8.decode? octets = some cs ∧ IsHarmlessText (Text.unifyLineEnds cs)

/-- Short texts are not fatal, whatever they say. -/
theorem isHarmlessText_of_length {cs : List Char} (h : cs.length ≤ Json.nestingLimit) :
    IsHarmlessText cs := by
  have hlimits : Json.nestingLimit ≤ Text.digitLimit := by decide
  constructor
  · intro hnests
    have hlong := Json.length_of_nestsBeyond hnests
    omega
  · intro count hdigits
    have hlong := Json.length_of_holdsDigits hdigits
    omega

/-- A harmless text that is no JSON breaks a rule of the format. -/
theorem IsHarmlessText.eq_malformed {cs : List Char} (h : IsHarmlessText cs) {f : ReadFault}
    (hparse : Json.parse cs = .error f) : f = .malformed := by
  obtain ⟨hnests, hdigits⟩ := h
  cases f with
  | malformed => rfl
  | tooDeep => exact absurd (Json.nestsBeyond_of_parse hparse) hnests
  | longInteger count =>
    obtain ⟨hlong, hholds⟩ := Json.holdsDigits_of_parse hparse
    exact absurd (hdigits count hholds) (Nat.not_le.mpr hlong)

variable {disk : Entry} {path : String} {octets : List UInt8}

/-- A file's text is its octets decoded, with the line ends made one kind, or the fault of the
octets. -/
theorem readText_of_readOctets (hread : disk.readOctets path = .ok octets) :
    disk.readText path = match Text.Utf8.decode? octets with
      | some cs => .ok (Text.unifyLineEnds cs)
      | none => .error (.undecodable (Text.Utf8.fault octets)) := by
  unfold Entry.readText
  exact hread ▸ rfl

/-- Octets that are no UTF-8 are fatal. -/
theorem load_of_decode?_eq_none (hread : disk.readOctets path = .ok octets)
    (hoctets : Text.Utf8.decode? octets = none) :
    load disk (some path) = .error (.undecodable (Text.Utf8.fault octets)) := by
  unfold load
  dsimp only
  rw [readText_of_readOctets hread, hoctets]

/-- **A cache is opened whatever a harmless file holds.** -/
theorem exists_load_of_isHarmless (hread : disk.readOctets path = .ok octets)
    (hoctets : IsHarmless octets) : ∃ c, load disk (some path) = .ok c := by
  obtain ⟨cs, hdecode, hharmless⟩ := hoctets
  unfold load
  dsimp only
  rw [readText_of_readOctets hread, hdecode]
  dsimp only
  cases hparse : Json.parse (Text.unifyLineEnds cs) with
  | ok d => exact ⟨_, rfl⟩
  | error f =>
    obtain rfl := hharmless.eq_malformed hparse
    exact ⟨_, rfl⟩

/-! ### Asking -/

/-- The answers to some questions, each about a file under the rules of a signature, asked one after
the other. -/
def askAll (c : EvidenceCache) : List (FileRecord × String) → List (Option KeptEvidence)
  | [] => []
  | (record, signature) :: rest =>
    (c.get record signature).1 :: (c.get record signature).2.askAll rest

/-- Asking a cache for evidence leaves its entries alone. -/
theorem entries_get (c : EvidenceCache) (record : FileRecord) (signature : String) :
    (c.get record signature).2.entries = c.entries := by
  unfold get
  split <;> rfl

/-- What a cache finds depends on its entries only. -/
theorem find?_of_entries {c c' : EvidenceCache} (h : c'.entries = c.entries) :
    c'.find? = c.find? := by
  funext record signature
  unfold find?
  rw [h]

/-- **No answer depends on what was asked before.** -/
theorem askAll_eq (c : EvidenceCache) (questions : List (FileRecord × String)) :
    c.askAll questions = questions.map fun q => c.find? q.1 q.2 := by
  induction questions generalizing c with
  | nil => rfl
  | cons q rest ih =>
    obtain ⟨record, signature⟩ := q
    have hanswer : (c.get record signature).1 = c.find? record signature := by
      unfold get
      split <;> simp [*]
    rw [askAll, ih, find?_of_entries (entries_get c record signature), hanswer]
    rfl

/-- Whether an answer is evidence for a file: it is filed under its path, and its number of lines is
a number or missing. -/
structure Answers (record : FileRecord) (k : KeptEvidence) : Prop where
  /-- The evidence is that of the file. -/
  path : k.path = record.path
  /-- Its number of lines is none, an integer or a truth value. -/
  lines : k.lines = .null ∨ (∃ n, k.lines = .int n) ∨ ∃ b, k.lines = .bool b

/-- Evidence that is made of an entry is whole, whatever the entry holds. -/
theorem answers_of_ofEntry? {record : FileRecord} {entry : Assoc String Datum} {k : KeptEvidence}
    (h : KeptEvidence.ofEntry? record.path entry = some k) : Answers record k := by
  unfold KeptEvidence.ofEntry? at h
  dsimp only at h
  split at h
  · next references exports findings _ _ _ =>
    cases hfound : findings.mapM Snapshot.findingOf with
    | error f => simp [hfound] at h
    | ok found =>
      cases hlines : (Assoc.get? "lines" entry).getD .null with
      | null =>
        simp only [hfound, hlines] at h
        cases h
        exact ⟨rfl, .inl rfl⟩
      | int n =>
        simp only [hfound, hlines] at h
        cases h
        exact ⟨rfl, .inr (.inl ⟨n, rfl⟩)⟩
      | bool b =>
        simp only [hfound, hlines] at h
        cases h
        exact ⟨rfl, .inr (.inr ⟨b, rfl⟩)⟩
      | _ =>
        simp only [hlines] at h
        cases h
  · cases h

/-- Evidence that is found answers for the record it was asked about. -/
theorem answers_of_find? {c : EvidenceCache} {record : FileRecord} {signature : String}
    {k : KeptEvidence} (h : c.find? record signature = some k) : Answers record k := by
  unfold find? at h
  split at h
  · split at h
    · exact answers_of_ofEntry? h
    · cases h
  · cases h

/-- **A cache opens whatever a harmless file holds, and answers every question with nothing or with
evidence for the file in question**; octets that are no UTF-8 are not forgiven. -/
theorem load_answers (hread : disk.readOctets path = .ok octets) :
    (IsHarmless octets → ∃ c, load disk (some path) = .ok c) ∧
      (Text.Utf8.decode? octets = none →
        load disk (some path) = .error (.undecodable (Text.Utf8.fault octets))) ∧
      ∀ c, load disk (some path) = .ok c → ∀ questions,
        List.Forall₂ (fun q answer => ∀ k, answer = some k → Answers q.1 k) questions
          (c.askAll questions) := by
  refine ⟨exists_load_of_isHarmless hread, load_of_decode?_eq_none hread, ?_⟩
  intro c _ questions
  rw [askAll_eq, List.forall₂_map_right_iff, List.forall₂_same]
  exact fun q _ k hk => answers_of_find? hk

/-- The text of a cache with an entry of which most is missing and one that is a number. -/
def damagedText : List Char :=
  ("\x7b\"version\": 1, \"entries\": \x7b\"a.py\": \x7b\"signature\": \"s\", \"size\": 1, " ++
    "\"mtime_ns\": 7, \"lines\": \"x\"\x7d, \"b.py\": 3\x7d\x7d").toList

/-- A disk with such a cache. -/
def damagedDisk : Entry := .ofEntries [("e", .file (Text.Utf8.encode damagedText) 7)]

/-- The damaged cache opens and answers every question. -/
theorem load_answers_damagedDisk :
    damagedDisk.readOctets "/e" = .ok (Text.Utf8.encode damagedText) ∧
      IsHarmless (Text.Utf8.encode damagedText) ∧
      ∃ c, load damagedDisk (some "/e") = .ok c ∧ ∀ questions,
        List.Forall₂ (fun q answer => ∀ k, answer = some k → Answers q.1 k) questions
          (c.askAll questions) := by
  have hread : damagedDisk.readOctets "/e" = .ok (Text.Utf8.encode damagedText) := by
    decide +kernel
  have hdecode : Text.Utf8.decode? (Text.Utf8.encode damagedText) = some damagedText := by
    decide +kernel
  have hharmless : IsHarmless (Text.Utf8.encode damagedText) :=
    ⟨_, hdecode, isHarmlessText_of_length (by decide)⟩
  obtain ⟨hopens, -, hanswers⟩ := load_answers hread
  obtain ⟨c, hc⟩ := hopens hharmless
  exact ⟨hread, hharmless, c, hc, hanswers c hc⟩

/-- A disk with a file of one octet that begins no character. -/
def spoiledDisk : Entry := .ofEntries [("e", .file [0xff] 7)]

/-- **The file of one octet is fatal**: no cache is opened. -/
theorem load_spoiledDisk :
    spoiledDisk.readOctets "/e" = .ok [0xff] ∧ ¬ ∃ c, load spoiledDisk (some "/e") = .ok c := by
  have hread : spoiledDisk.readOctets "/e" = .ok [0xff] := by decide
  refine ⟨hread, ?_⟩
  rintro ⟨c, hc⟩
  rw [load_of_decode?_eq_none hread (by decide)] at hc
  cases hc

end EvidenceCache

end ProjectSurvey
