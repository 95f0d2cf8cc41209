import ProjectSurvey.Proofs.FileReport

/-!
# The extension and the language of a file

Two readings of a name stand side by side. The extension of a record is what follows the last dot
unless only dots stand in front of it (`Path.extension`); the language goes by what follows the last
dot unless the dot begins or ends the name (`Path.suffix`). **They are the same except for a name
that ends in a dot behind another character, and for one that is two dots or more and a text without
dots behind them** (`Path.lowered_extension_eq_iff`). So of a file with any other name the language
is what the tables say of its extension, on a walk as well as in a report
(`FileRecord.GoesBySuffix`); for a name of these two kinds there are tables by which it is not.
-/

namespace ProjectSurvey

namespace Text

/-- Lowering a text never shortens it. -/
theorem le_length_lower_go (before acc cs : List Char) :
    acc.length + cs.length ≤ (lower.go before acc cs).length := by
  induction cs generalizing before acc with
  | nil => simp [lower.go]
  | cons c cs ih =>
    have hne : 1 ≤ (lowerAt before c cs).length := by
      unfold lowerAt
      split
      · exact Nat.le_succ 1
      · split <;> exact Nat.le_refl 1
    have hrest := ih (c :: before) ((lowerAt before c cs).reverse ++ acc)
    rw [lower.go]
    simp only [List.length_append, List.length_reverse, List.length_cons] at hrest ⊢
    omega

/-- Nothing but the empty text is empty in lower case. -/
theorem lowered_eq_empty_iff {s : String} : lowered s = "" ↔ s = "" := by
  constructor
  · intro h
    have hlength := le_length_lower_go [] [] s.toList
    have hnil : lower s.toList = [] := by simpa [lowered] using congrArg String.toList h
    rw [lower] at hnil
    rw [hnil, List.length_nil, Nat.zero_add, Nat.le_zero, List.length_eq_zero_iff] at hlength
    exact String.toList_eq_nil_iff.mp hlength
  · rintro rfl
    rfl

end Text

namespace Path

/-! ### Two readings of a name -/

/-- Whether a name ends in a dot behind another character, or is two dots or more and a text without
dots behind them. -/
def IsOddlyDotted (name : String) : Prop :=
  ∃ front back, name.toList = front ++ '.' :: back ∧ '.' ∉ back ∧
    (back = [] ∧ (∃ c ∈ front, c ≠ '.') ∨ back ≠ [] ∧ front ≠ [] ∧ ∀ c ∈ front, c = '.')

variable {name : String} {front back : List Char}

/-- The last dot divides a name. -/
theorem atLastDot?_of_split (hname : name.toList = front ++ '.' :: back) (hback : '.' ∉ back) :
    atLastDot? name.toList = some (front, '.' :: back) := by
  unfold atLastDot?
  rw [hname, Text.beforeLast?_append_cons front hback, Option.map_some, List.drop_left]

/-- The suffix starts at the last dot, unless there is nothing on one side of it. -/
theorem suffix_of_split (hname : name.toList = front ++ '.' :: back) (hback : '.' ∉ back) :
    suffix name = if front = [] ∨ back = [] then "" else String.ofList ('.' :: back) := by
  unfold suffix
  rw [atLastDot?_of_split hname hback]
  cases front <;> cases back <;> simp

/-- The extension starts at the last dot, unless there are only dots in front of it. -/
theorem extension_of_split (hname : name.toList = front ++ '.' :: back) (hback : '.' ∉ back) :
    extension name = if front.all (· == '.') then "" else String.ofList ('.' :: back) := by
  unfold extension splitExtension
  rw [atLastDot?_of_split hname hback]
  dsimp only
  split <;> rfl

/-- A name is oddly dotted when its last dot ends it, or when only dots are in front of that one. -/
theorem isOddlyDotted_iff (hname : name.toList = front ++ '.' :: back) (hback : '.' ∉ back) :
    IsOddlyDotted name ↔
      back = [] ∧ (∃ c ∈ front, c ≠ '.') ∨ back ≠ [] ∧ front ≠ [] ∧ ∀ c ∈ front, c = '.' := by
  constructor
  · rintro ⟨front', back', hname', hback', h⟩
    have hsplit := (atLastDot?_of_split hname hback).symm.trans (atLastDot?_of_split hname' hback')
    cases hsplit
    exact h
  · intro h
    exact ⟨front, back, hname, hback, h⟩

/-- **The extension of a name is its suffix unless the name is oddly dotted.** -/
theorem lowered_extension_eq_iff (name : String) :
    Text.lowered (extension name) = Text.lowered (suffix name) ↔ ¬ IsOddlyDotted name := by
  rcases Text.exists_lastSplit '.' name.toList with hnone | ⟨front, back, hname, hback⟩
  · have hdot : atLastDot? name.toList = none := by
      unfold atLastDot?
      rw [Text.beforeLast?_of_not_mem hnone]
      rfl
    refine iff_of_true ?_ ?_
    · unfold extension splitExtension suffix
      rw [hdot]
    · rintro ⟨front, back, hname, -⟩
      exact hnone (by simp [hname])
  · rw [isOddlyDotted_iff hname hback, extension_of_split hname hback, suffix_of_split hname hback]
    have hempty : Text.lowered "" = "" := rfl
    have hrest : Text.lowered (String.ofList ('.' :: back)) ≠ "" := by
      rw [Ne, Text.lowered_eq_empty_iff]
      simp
    by_cases hall : ∀ c ∈ front, c = '.'
    · rw [if_pos (by simpa using hall), hempty]
      have hno : ¬ ∃ c ∈ front, c ≠ '.' := by simpa using hall
      by_cases hsplit : front = [] ∨ back = []
      · rw [if_pos hsplit]
        refine iff_of_true rfl ?_
        rintro (⟨-, h⟩ | ⟨hback, hfront, -⟩)
        · exact hno h
        · exact hsplit.elim hfront hback
      · rw [if_neg hsplit]
        rw [not_or] at hsplit
        exact iff_of_false hrest.symm (not_not_intro (.inr ⟨hsplit.2, hsplit.1, hall⟩))
    · rw [if_neg (by simpa using hall)]
      have hfront : front ≠ [] := by
        rintro rfl
        exact hall (by simp)
      by_cases hend : back = []
      · rw [if_pos (.inr hend)]
        exact iff_of_false hrest (not_not_intro (.inl ⟨hend, by simpa using hall⟩))
      · rw [if_neg (by simp [hfront, hend])]
        refine iff_of_true rfl ?_
        rintro (⟨h, -⟩ | ⟨-, -, h⟩)
        · exact hend h
        · exact hall h

end Path

namespace Tables

/-- The language that the tables give to an extension. -/
def languageOfExtension (t : Tables) (extension : String) : String :=
  (Assoc.get? extension t.languageByExtension).getD "unknown"

/-- Whether the tables leave the language of a name to its suffix. -/
def LeavesOpen (t : Tables) (name : String) : Prop :=
  ∀ language ∈ Assoc.get? name t.languageByFilename, language = ""

end Tables

/-- A name that the table of names leaves open has its language by its suffix. -/
theorem languageOf_of_leavesOpen {t : Tables} {path : String} (h : t.LeavesOpen (Path.name path)) :
    languageOf t path = t.languageOfExtension (Text.lowered (Path.suffix (Path.name path))) := by
  unfold languageOf
  dsimp only
  split
  · next language hname => rw [if_pos (h language hname), Tables.languageOfExtension]
  · rfl

namespace FileRecord

/-! ### Records -/

/-- What the extension and the language of a record have to do with each other. -/
structure GoesBySuffix (t : Tables) (r : FileRecord) : Prop where
  /-- The extension is that of the name. -/
  extension_eq : r.extension = Text.lowered (Path.extension (Path.name r.path))
  /-- The extension is the suffix unless the name is oddly dotted. -/
  extension_eq_iff : r.extension = Text.lowered (Path.suffix (Path.name r.path)) ↔
    ¬ Path.IsOddlyDotted (Path.name r.path)
  /-- The language is that of the suffix, -/
  language_eq : t.LeavesOpen (Path.name r.path) →
    r.language = t.languageOfExtension (Text.lowered (Path.suffix (Path.name r.path)))
  /-- which is that of the extension unless the name is oddly dotted. -/
  language_eq_of_extension : ¬ Path.IsOddlyDotted (Path.name r.path) →
    t.LeavesOpen (Path.name r.path) → r.language = t.languageOfExtension r.extension

/-- A record whose extension and language come from its path goes by its suffix where they agree. -/
theorem goesBySuffix_of {t : Tables} {r : FileRecord}
    (hextension : r.extension = Text.lowered (Path.extension (Path.name r.path)))
    (hlanguage : r.language = languageOf t r.path) : r.GoesBySuffix t := by
  constructor
  case extension_eq => exact hextension
  case extension_eq_iff =>
    rw [hextension]
    exact Path.lowered_extension_eq_iff _
  case language_eq =>
    intro hopen
    rw [hlanguage, languageOf_of_leavesOpen hopen]
  case language_eq_of_extension =>
    intro hodd hopen
    rw [hextension, (Path.lowered_extension_eq_iff _).mpr hodd, hlanguage,
      languageOf_of_leavesOpen hopen]

/-- Where extension and suffix differ, there are tables that know the suffix only. -/
theorem exists_tables_of_isOddlyDotted {name : String} (hodd : Path.IsOddlyDotted name) :
    ∃ t : Tables, Assoc.get? name t.languageByFilename = none ∧
      t.languageOfExtension (Text.lowered (Path.suffix name)) ≠
        t.languageOfExtension (Text.lowered (Path.extension name)) := by
  have hne := mt (Path.lowered_extension_eq_iff name).mp (not_not_intro hodd)
  have hextension : Assoc.get? (Text.lowered (Path.extension name))
      [(Text.lowered (Path.suffix name), "python")] = none := by
    rw [Assoc.get?, if_neg (Ne.symm hne), Assoc.get?_nil]
  have hsuffix : Assoc.get? (Text.lowered (Path.suffix name))
      [(Text.lowered (Path.suffix name), "python")] = some "python" := by
    rw [Assoc.get?, if_pos rfl]
  refine ⟨{ Tables.default with
    languageByFilename := []
    languageByExtension := [(Text.lowered (Path.suffix name), "python")] }, rfl, ?_⟩
  unfold Tables.languageOfExtension
  dsimp only
  rw [hextension, hsuffix]
  decide

end FileRecord

/-- The record of a file goes by its suffix. -/
theorem Walk.IsRecordAt.goesBySuffix {t : Tables} {limit : Int} {disk : Entry} {root : Location}
    {names : List String} {f : Entry} {r : FileRecord} (htree : disk.IsTree)
    (h : Walk.IsRecordAt t limit disk root names f r) : r.GoesBySuffix t := by
  obtain ⟨-, hnames⟩ :=
    Path.areNames_append.mp (htree.areNames_of_at? (Entry.at?_of_reach? h.reached)).1
  obtain ⟨front, n, rfl⟩ : ∃ front n, names = front ++ [n] :=
    ⟨_, _, (List.dropLast_concat_getLast h.ne_nil).symm⟩
  have hn : Path.IsName n := hnames n (by simp)
  rw [h.record_eq]
  refine FileRecord.goesBySuffix_of ?_ (language_classify _)
  show Text.lowered (Path.extension (Path.lastSegment _)) =
    Text.lowered (Path.extension (Path.name (Path.ofSegments (front ++ [n]))))
  rw [Path.lastSegment_ofSegments_concat front hn, Path.name_ofSegments_concat hnames.areComponents]

namespace FileReport

/-- A file is shown under its name, wherever it is. -/
theorem name_shownPath {root l : Location} (hl : Path.AreComponents l) (hne : l ≠ root) :
    Path.name (shownPath root l) = l.name := by
  unfold shownPath
  split
  · next names hbelow =>
    obtain rfl := eq_append_of_below? hbelow
    obtain ⟨front, n, rfl⟩ : ∃ front n, names = front ++ [n] :=
      ⟨_, _, (List.dropLast_concat_getLast (by simpa using hne)).symm⟩
    show Path.name (Path.ofSegments (front ++ [n])) = _
    rw [Path.name_ofSegments_concat (List.forall_mem_append.mp hl).2, Location.name,
      ← List.append_assoc, List.getLastD_concat]
  · rw [Path.name, hl.components_text, Location.name]

/-- A report is one on a file whose record goes by its suffix. -/
theorem exists_recordAt_of_ofFile {t : Tables} {rules : List Rule} {limit : Int} {disk : Entry}
    {root : Location} {path : String} {report : FileReport} {top : Entry} (htree : disk.IsTree)
    (hroot : disk.at? root = some top) (htop : top.isDirectory = true)
    (h : ofFile t rules limit disk root path = .ok report) :
    ∃ l size modified text, report = ofRecord rules (recordAt t root l size modified text) text ∧
      (recordAt t root l size modified text).GoesBySuffix t := by
  unfold ofFile at h
  split at h
  · cases h
  · next l hl =>
    split at h
    · cases h
    · next octets modified hseek =>
      split at h
      · cases h
      · cases h
        have hcomponents := Entry.areComponents_of_resolve hl
        have hne : l ≠ root := by
          rintro rfl
          rw [Entry.seek_text_of_directory htree hroot htop hseek] at htop
          cases htop
        refine ⟨_, _, _, _, rfl, FileRecord.goesBySuffix_of ?_ (language_classify _)⟩
        show Text.lowered (Path.extension l.name) =
          Text.lowered (Path.extension (Path.name (shownPath root l)))
        rw [name_shownPath hcomponents hne]
    · cases h
    · cases h

end FileReport

/-- **The records of a project and those behind its reports go by their suffixes**, and for a name
that is oddly dotted there are tables by which no file of that name has the language of its
extension. -/
theorem records_goBySuffix {disk : Entry} {root : Location} {top : Entry} (htree : disk.IsTree)
    (hroot : disk.at? root = some top) (htop : top.isDirectory = true) :
    (∀ t st sc, Walk.scan t st disk root = .ok sc → ∀ r ∈ sc.files, r.GoesBySuffix t) ∧
      (∀ t rules limit path report, FileReport.ofFile t rules limit disk root path = .ok report →
        ∃ l size modified text, report =
            FileReport.ofRecord rules (FileReport.recordAt t root l size modified text) text ∧
          (FileReport.recordAt t root l size modified text).GoesBySuffix t) ∧
      ∀ name, Path.IsOddlyDotted name → ∃ t : Tables,
        Assoc.get? name t.languageByFilename = none ∧ ∀ r : FileRecord, Path.name r.path = name →
          r.GoesBySuffix t → r.language ≠ t.languageOfExtension r.extension := by
  refine ⟨fun t st sc hscan r hr => ?_, fun t rules limit path report h => ?_, fun name hodd => ?_⟩
  · obtain ⟨names, f, hat⟩ := (Walk.isConsistent_of_scan hscan htree).exists_of_mem r hr
    exact hat.goesBySuffix htree
  · exact FileReport.exists_recordAt_of_ofFile htree hroot htop h
  · obtain ⟨t, hnone, hne⟩ := FileRecord.exists_tables_of_isOddlyDotted hodd
    refine ⟨t, hnone, ?_⟩
    rintro r rfl hr
    have hopen : t.LeavesOpen (Path.name r.path) := by
      intro language hlanguage
      rw [hnone] at hlanguage
      cases hlanguage
    rwa [hr.language_eq hopen, hr.extension_eq]

/-! ### Names that begin with dots -/

/-- A module whose name begins with two dots, and another one. -/
def dottedProject : Entry :=
  .ofEntries [("..py", .file (Text.Utf8.encode "import os\n".toList) 7),
    ("a.py", .file (Text.Utf8.encode "import os\n".toList) 7)]

/-- A disk with a project of the two. -/
def dottedDisk : Entry := .ofEntries [("p", dottedProject)]

/-- The disk of the example is a tree. -/
theorem isTree_dottedDisk : dottedDisk.IsTree := by
  refine Entry.isTree_singleton (by decide) (Entry.isTree_directory.mpr ⟨by decide, ?_⟩)
  simp only [List.forall_mem_cons]
  exact ⟨⟨by decide, trivial⟩, ⟨by decide, trivial⟩, by simp⟩

/-- A scan of the project comes to both modules. -/
theorem exists_scan_dottedDisk : ∃ st sc, Walk.scan .default st dottedDisk ["p"] = .ok sc ∧
    ∀ n ∈ ["..py", "a.py"], ∃ r ∈ sc.files, r.path = n ∧ r.language = languageOf .default n := by
  have hreadable : Surveyor.IsReadable dottedDisk ["p"] dottedProject :=
    ⟨isTree_dottedDisk, rfl, rfl, rfl⟩
  obtain ⟨sc, hscan, hfiles⟩ := FileReport.exists_scanOf_default hreadable rfl
  obtain ⟨st, -, hsc⟩ := Surveyor.scanOf_eq_ok hscan
  refine ⟨st, sc, hsc, ?_⟩
  simp only [List.forall_mem_cons]
  refine ⟨?_, ?_, by simp⟩
  · obtain ⟨r, hr, hpath, hlanguage, -⟩ :=
      hfiles "..py" _ (by decide) (by decide) (by decide +kernel) rfl rfl
    exact ⟨r, hr, hpath, hlanguage⟩
  · obtain ⟨r, hr, hpath, hlanguage, -⟩ :=
      hfiles "a.py" _ (by decide) (by decide) (by decide) rfl rfl
    exact ⟨r, hr, hpath, hlanguage⟩

/-- The language of the other module is that of its extension. -/
theorem records_goBySuffix_dottedDisk :
    dottedDisk.IsTree ∧ dottedDisk.at? ["p"] = some dottedProject ∧
      dottedProject.isDirectory = true ∧
      ∃ st sc, Walk.scan .default st dottedDisk ["p"] = .ok sc ∧ ∃ r ∈ sc.files,
        r.path = "a.py" ∧ r.language = Tables.default.languageOfExtension r.extension := by
  obtain ⟨st, sc, hsc, hfiles⟩ := exists_scan_dottedDisk
  obtain ⟨r, hr, hpath, -⟩ := hfiles "a.py" (by decide)
  have hgoes := (records_goBySuffix isTree_dottedDisk rfl rfl).1 .default st sc hsc r hr
  refine ⟨isTree_dottedDisk, rfl, rfl, st, sc, hsc, r, hr, hpath,
    hgoes.language_eq_of_extension ?_ ?_⟩
  · rw [hpath, ← Path.lowered_extension_eq_iff]
    decide +kernel
  · have hnone : Assoc.get? (Path.name "a.py") Tables.default.languageByFilename = none := by
      decide +kernel
    intro language hlanguage
    rw [hpath, hnone] at hlanguage
    cases hlanguage

/-- **The module whose name begins with two dots is one by its suffix, and has no extension**; the
tables have no language for that. -/
theorem record_dottedDisk :
    ∃ st sc, Walk.scan .default st dottedDisk ["p"] = .ok sc ∧ ∃ r ∈ sc.files,
      r.path = "..py" ∧ Assoc.get? "..py" Tables.default.languageByFilename = none ∧
        r.extension = "" ∧ Text.lowered (Path.suffix "..py") = ".py" ∧ r.language = "python" ∧
        Tables.default.languageOfExtension r.extension = "unknown" := by
  obtain ⟨st, sc, hsc, hfiles⟩ := exists_scan_dottedDisk
  obtain ⟨r, hr, hpath, hlanguage⟩ := hfiles "..py" (by decide)
  obtain ⟨names, f, hat⟩ := (Walk.isConsistent_of_scan hsc isTree_dottedDisk).exists_of_mem r hr
  have hextension : r.extension = "" := by
    rw [(hat.goesBySuffix isTree_dottedDisk).extension_eq, hpath]
    rfl
  refine ⟨st, sc, hsc, r, hr, hpath, by decide, hextension, by decide +kernel, ?_, ?_⟩
  · rw [hlanguage]
    decide
  · rw [hextension]
    decide

end ProjectSurvey
