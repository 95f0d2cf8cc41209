import ProjectSurvey.FileReport.OnDisk
import ProjectSurvey.Proofs.Evidence.Refinement
import ProjectSurvey.Proofs.Survey.Gathered
import ProjectSurvey.Proofs.Walk.Consistency

/-!
# The report on a file and the survey of its project

A file of a project is read, classified and searched in two ways: by a survey, which keeps
`Evidence`, and alone, for a `FileReport`. **Both come to the same** (`FileReport.ofFile_agrees`):
the same language, lines and references, and the same findings, of which a survey keeps those of a
test file only where the rule does not skip test files.

* The lines of a report by kind add up to all lines (`LineKinds.isSplit_ofText`): adding one line
  keeps the sum.
* The findings of both are read off one list, which tells the rule beside each finding
  (`Engine.observedIn`).
* What a survey gathers for a file is what is there now unless the cache has something current and
  yet other for it (`Gathering.get?_gather`, `Gathering.visit_of_isHonest`).

A symbolic link is another matter. A walk takes it for a file of its own name; a report is on the
file to which it leads, under the name of that one. So is a file that was written since the cache
was, with as many octets and the same time (`FileReport.ofFile_differs`).
-/

namespace ProjectSurvey

/-! ### Lines -/

namespace LineKinds

/-- Whether every line is of exactly one kind. -/
def IsSplit (k : LineKinds) : Prop := k.total = k.code + k.comment + k.blank

/-- Counting one more line in its kind keeps the kinds a split of all lines. -/
theorem IsSplit.add {k : LineKinds} (h : k.IsSplit) (starts : List String) (line : List Char) :
    (k.add starts line).IsSplit := by
  unfold IsSplit at h ⊢
  unfold LineKinds.add
  dsimp only
  split
  · dsimp only
    omega
  · split <;> dsimp only <;> omega

/-- Whatever its kind, one more line is one more in all. -/
theorem total_add (k : LineKinds) (starts : List String) (line : List Char) :
    (k.add starts line).total = k.total + 1 := by
  unfold LineKinds.add
  dsimp only
  split
  · rfl
  · split <;> rfl

/-- So does counting any number of lines. -/
theorem isSplit_foldl_add (starts : List String) (lines : List (List Char)) {k : LineKinds}
    (h : k.IsSplit) : (lines.foldl (add starts) k).IsSplit := by
  induction lines generalizing k with
  | nil => exact h
  | cons line rest ih => exact ih (h.add starts line)

/-- The total grows by the number of the lines counted. -/
theorem total_foldl_add (starts : List String) (lines : List (List Char)) (k : LineKinds) :
    (lines.foldl (add starts) k).total = k.total + lines.length := by
  induction lines generalizing k with
  | nil => rfl
  | cons line rest ih =>
    rw [List.foldl_cons, ih, total_add, List.length_cons]
    omega

/-- **Every line of a text is code, a comment or blank.** -/
theorem isSplit_ofText (text : List Char) (language : String) : (ofText text language).IsSplit :=
  isSplit_foldl_add _ _ rfl

/-- The total for a text is the number of its lines. -/
theorem total_ofText (text : List Char) (language : String) :
    (ofText text language).total = Text.lineCount text := by
  rw [ofText, total_foldl_add, Nat.zero_add]
  rfl

end LineKinds

/-! ### Findings -/

/-- Whether a rule passes over test files. -/
def Rule.skipsTests : Rule → Bool
  | .content _ _ skipsTests _ => skipsTests
  | .project .. => false

/-- A rule applies to a record by its language and, for some rules, by its not being a test. -/
theorem Rule.appliesTo_eq (record : FileRecord) (r : Rule) :
    r.appliesTo record = (r.speaks record.language && !(r.skipsTests && record.kind.isTest)) := by
  cases r with
  | content _ _ _ _ => rfl
  | project _ _ => rfl

namespace Engine

/-- What the rules that have a say about a language observe in a text, each finding beside its
rule. -/
def observedIn (rules : List Rule) (language path : String) (text : List Char) :
    List (Rule × Finding) :=
  (rules.filter fun r => r.speaks language).filterMap fun r =>
    (r.findingIn? path text).map fun f => (r, f)

/-- The findings observed in a text are those of the rules that speak its language, in their
order. -/
theorem map_snd_observedIn (rules : List Rule) (language path : String) (text : List Char) :
    (observedIn rules language path text).map Prod.snd =
      (rules.filter fun r => r.speaks language).filterMap fun r => r.findingIn? path text := by
  simp [observedIn, List.map_filterMap, Function.comp_def]

/-- What is found by some of the rules is what is found by all, the others left out. -/
theorem filterMap_filter_eq_map (p : Rule → Bool) (f : Rule → Option Finding) (rules : List Rule) :
    (rules.filter p).filterMap f =
      ((rules.filterMap fun r => (f r).map fun x => (r, x)).filter fun q => p q.1).map
        Prod.snd := by
  induction rules with
  | nil => rfl
  | cons r rest ih =>
    cases hf : f r <;> cases hp : p r <;> simp [hf, hp, ih]

/-- The findings in a file are what is observed in it by rules that do not pass over it. -/
theorem scanContent_eq (rules : List Rule) (record : FileRecord) (text : List Char) :
    scanContent rules record text =
      ((observedIn rules record.language record.path text).filter fun p =>
        !(p.1.skipsTests && record.kind.isTest)).map Prod.snd := by
  have happly : (rules.filter fun r => r.appliesTo record) =
      (rules.filter fun r => r.speaks record.language).filter fun r =>
        !(r.skipsTests && record.kind.isTest) := by
    rw [List.filter_filter]
    apply List.filter_congr
    intro r _
    rw [Rule.appliesTo_eq, Bool.and_comm]
  rw [scanContent, happly]
  exact filterMap_filter_eq_map _ _ _

end Engine

/-! ### Reading the file -/

namespace FileReport

/-- What stands below a root is named by the rest of its location. -/
theorem below?_append (root names : Location) :
    Location.below? root (root ++ names) = some names := by
  induction root with
  | nil => rfl
  | cons n root ih => rw [List.cons_append, Location.below?, if_pos rfl, ih]

/-- What has a name below a root stands where the name says. -/
theorem eq_append_of_below? {root l : Location} {names : List String}
    (h : Location.below? root l = some names) : l = root ++ names := by
  induction root generalizing l with
  | nil => exact Option.some.inj h
  | cons a root ih =>
    cases l with
    | nil => cases h
    | cons b l =>
      rw [Location.below?] at h
      split at h
      · next heq => rw [heq, ih h, List.cons_append]
      · cases h

/-- A file below the root is shown by its path from there. -/
theorem shownPath_append (root names : Location) :
    shownPath root (root ++ names) = Path.ofSegments names := by
  unfold shownPath
  rw [below?_append]
  rfl

/-- The report on a file below a root, by its path there. -/
theorem ofFile_of_reach? {t : Tables} {rules : List Rule} {limit : Int} {disk : Entry}
    {root names : Location} {octets : List UInt8} {m : Int} (hnames : Path.AreNames (root ++ names))
    (hne : names ≠ []) (hfile : disk.reach? (root ++ names) = some (.file octets m))
    (hcheck : Entry.checkPath (Location.text (root ++ names)) = .ok ())
    (hsize : (octets.length : Int) ≤ limit) :
    ofFile t rules limit disk root (Path.ofSegments names) =
      .ok (ofRecord rules
        (recordAt t root (root ++ names) octets.length m
          (Text.unifyLineEnds (Text.Utf8.decodeForgiving octets)))
        (Text.unifyLineEnds (Text.Utf8.decodeForgiving octets))) := by
  obtain ⟨hroot, hbelow⟩ := Path.areNames_append.mp hnames
  have hstraight : disk.IsStraight (root ++ names) :=
    Entry.isStraight_of_at? (Entry.at?_of_reach? hfile) nofun
  have hresolve :
      disk.resolve (Path.join root.text (Path.ofSegments names)) = .ok (root ++ names) := by
    rw [Path.join_text_ofSegments hroot hne hbelow]
    exact Entry.resolve_text hnames hstraight
  have hseek : disk.seek (Location.text (root ++ names)) = .ok (some (.file octets m)) := by
    unfold Entry.seek
    rw [Entry.locate_text_of_ok disk hnames hcheck,
      Entry.follow_of_reach? hnames hfile hstraight.self]
  unfold ofFile
  rw [hresolve]
  dsimp only
  rw [hseek]
  dsimp only
  rw [if_neg (by omega)]

end FileReport

/-- What a survey reads of a file below the root. -/
theorem Entry.readWithin_of_reach? {disk : Entry} {root names : Location} {octets : List UInt8}
    {m : Int} (hnames : Path.AreNames (root ++ names)) (hne : names ≠ [])
    (hfile : disk.reach? (root ++ names) = some (.file octets m))
    (hcheck : Entry.checkPath (Location.text (root ++ names)) = .ok ()) {limit : Int}
    (hsize : (octets.length : Int) ≤ limit) :
    disk.readWithin limit (Path.join root.text (Path.ofSegments names)) =
      (Text.Utf8.decode? octets).map Text.unifyLineEnds := by
  obtain ⟨hroot, hbelow⟩ := Path.areNames_append.mp hnames
  have hread : disk.readOctets (Path.join root.text (Path.ofSegments names)) = .ok octets := by
    rw [Path.join_text_ofSegments hroot hne hbelow, Entry.readOctets_text_of_file hnames hfile,
      hcheck]
    rfl
  unfold readWithin
  rw [hread]
  dsimp only
  rw [if_neg (by omega)]

/-! ### Both ways -/

namespace FileReport

/-- Whether the report on a file of a project agrees with what a survey of the project found out
about it, given the text of the file. -/
structure Agrees (rules : List Rule) (text : List Char) (r : FileRecord) (e : Evidence)
    (report : FileReport) : Prop where
  /-- Both go by the same path. -/
  path : report.path = r.path
  /-- The language is the same. -/
  language : report.language = r.language
  /-- There are as many lines, -/
  lines : e.lines = some (report.lines.total : Int)
  /-- and each is of one kind. -/
  split : report.lines.total = report.lines.code + report.lines.comment + report.lines.blank
  /-- The references are the same. -/
  references : report.references = e.references
  /-- The report has what all rules of the language observe. -/
  observed : report.findings = (Engine.observedIn rules r.language r.path text).map Prod.snd
  /-- The survey has the same findings in a file that is no test file, -/
  findings : r.kind.isTest = false → e.findings = report.findings
  /-- and in a test file those of the rules that do not pass over test files, in the same order. -/
  findings_of_isTest : r.kind.isTest = true →
    e.findings = ((Engine.observedIn rules r.language r.path text).filter fun p =>
      !p.1.skipsTests).map Prod.snd

/-- Evidence and report of one text agree when path and language do. -/
theorem agrees_ofRecord (rules : List Rule) {r q : FileRecord} (text : List Char)
    (hpath : q.path = r.path) (hlanguage : q.language = r.language) :
    Agrees rules text r (Evidence.ofText rules r (some text)) (ofRecord rules q text) := by
  have hobserved : (ofRecord rules q text).findings =
      (Engine.observedIn rules r.language r.path text).map Prod.snd := by
    rw [Engine.map_snd_observedIn, ← hlanguage, ← hpath]
    rfl
  refine
    { path := hpath, language := hlanguage, lines := ?_, split := LineKinds.isSplit_ofText _ _,
      references := ?_, observed := hobserved, findings := ?_, findings_of_isTest := ?_ }
  · show some (Text.lineCount text : Int) = _
    rw [← LineKinds.total_ofText text q.language]
    rfl
  · show _ = Reference.extract r.language text
    rw [← hlanguage]
    rfl
  · intro htest
    show Engine.scanContent rules r text = _
    rw [Engine.scanContent_eq, htest, hobserved]
    simp
  · intro htest
    show Engine.scanContent rules r text = _
    rw [Engine.scanContent_eq, htest]
    simp

/-- **The report on a file agrees with the survey of its project**: for every file that the walk
comes to, no link, whose octets are a text of a source language and not too many, and of which the
cache, if the survey has one, is honest. -/
theorem ofFile_agrees {s : Surveyor} {w : Workspace} (htree : w.disk.IsTree) {root : Location}
    {o : Options} {sc : Scan} {found : Assoc String Evidence}
    (hrun : ((s.gathered root o).run w).1 = .ok (sc, found)) {r : FileRecord} (hr : r ∈ sc.files)
    (hsource : s.tables.isCountable r.language = true) {octets : List UInt8} {m : Int}
    (hfile : w.disk.at? (root ++ Path.components r.path) = some (.file octets m)) {text : List Char}
    (htext : Text.Utf8.decode? octets = some text) (hsize : (octets.length : Int) ≤ o.maxFileSize)
    {limit : Int} (hlimit : (octets.length : Int) ≤ limit)
    (hhonest : ∀ cache, Surveyor.cacheOf w.disk root o = .ok cache →
      (s.gatheringOf w.disk root o).IsHonest r cache) :
    ∃ e report, Assoc.get? r.path found = some e ∧
      ofFile s.tables (s.rulesFor o) limit w.disk root r.path = .ok report ∧
      Agrees (s.rulesFor o) (Text.unifyLineEnds text) r e report := by
  obtain ⟨hscan, hevidence⟩ := Surveyor.gathered_eq_ok_iff.mp hrun
  obtain ⟨st, -, hsc⟩ := Surveyor.scanOf_eq_ok hscan
  have hconsistent := Walk.isConsistent_of_scan hsc htree
  obtain ⟨cache, hcache, rfl⟩ := Surveyor.evidenceOf_eq_ok hevidence
  rw [hconsistent.root_eq] at hcache ⊢
  obtain ⟨names, f, hat⟩ := hconsistent.exists_of_mem r hr
  obtain ⟨hroot, hnames⟩ :=
    Path.areNames_append.mp (htree.areNames_of_at? (Entry.at?_of_reach? hat.reached)).1
  have hpath : r.path = Path.ofSegments names := by rw [hat.record_eq]; rfl
  have hall : Path.AreNames (root ++ names) := Path.areNames_append.mpr ⟨hroot, hnames⟩
  rw [hpath, Path.components_ofSegments hnames] at hfile
  cases (Entry.at?_of_reach? hat.reached).symm.trans hfile
  -- what is gathered for the file is what is in its text
  have hgathered : Assoc.get? r.path ((s.gatheringOf w.disk root o).gather cache sc.files).1 =
      some (Evidence.ofText (s.rulesFor o) r (some (Text.unifyLineEnds text))) := by
    rw [Gathering.get?_gather hconsistent.nodup_files hr hsource,
      Gathering.visit_of_isHonest (hhonest cache hcache), Gathering.fresh, hpath]
    show some (Evidence.ofText _ r (w.disk.readWithin o.maxFileSize _)) = _
    rw [Entry.readWithin_of_reach? hall hat.ne_nil hat.reached hat.taken hsize, htext]
    rfl
  have hreport : ofFile s.tables (s.rulesFor o) limit w.disk root r.path =
      .ok (ofRecord (s.rulesFor o)
        (recordAt s.tables root (root ++ names) octets.length m (Text.unifyLineEnds text))
        (Text.unifyLineEnds text)) := by
    rw [hpath, ofFile_of_reach? hall hat.ne_nil hat.reached hat.taken hlimit,
      Text.Utf8.decodeForgiving_of_decode? htext]
  have hshown : shownPath root (root ++ names) = r.path :=
    (shownPath_append root names).trans hpath.symm
  have hlanguage : r.language = languageOf s.tables r.path := by
    rw [hat.record_eq]
    exact language_classify _
  refine ⟨_, _, hgathered, hreport, agrees_ofRecord _ _ hshown ?_⟩
  exact (language_classify _).trans (hshown ▸ hlanguage.symm)

/-! ### A link under another name -/

/-- A module and, under the name of a script, a link to it. -/
def turnedProject : Entry :=
  .ofEntries [("a.py", .file (Text.Utf8.encode "import os\n".toList) 7), ("b.js", .link "a.py" 7)]

/-- A disk with a project of such a module. -/
def turnedDisk : Entry := .ofEntries [("p", turnedProject)]

/-- A workspace with the disk. -/
def turnedWorkspace : Workspace := ⟨turnedDisk, [], [], 0, [], []⟩

/-- The disk of the example is a tree. -/
theorem isTree_turnedDisk : turnedDisk.IsTree := by
  refine Entry.isTree_singleton (by decide) (Entry.isTree_directory.mpr ⟨by decide, ?_⟩)
  simp only [List.forall_mem_cons]
  exact ⟨⟨by decide, trivial⟩, ⟨by decide, trivial⟩, by simp⟩

/-- Its root has a plain name. -/
theorem areNames_root : Path.AreNames ["p"] :=
  Path.areNames_cons.mpr ⟨by decide, Path.areNames_nil⟩

/-- Everything the run looks at on it can be read. -/
theorem isReadable_turnedDisk : Surveyor.IsReadable turnedDisk ["p"] turnedProject :=
  ⟨isTree_turnedDisk, rfl, rfl, rfl⟩

/-- A file of its language is countable by the default tables. -/
theorem isCountable_of_language {r : FileRecord} (h : r.language = languageOf .default "a.py") :
    Tables.default.isCountable r.language = true := by
  rw [h]
  decide

/-- A walk under the usual options comes to the files at the top of a project. -/
theorem exists_scanOf_default {disk : Entry} {es : List (String × Entry)} {b : ListRight} {g : Bool}
    (h : Surveyor.IsReadable disk ["p"] (.directory es b g))
    (hignore : es.lookup Walk.ignoreFile = none) :
    ∃ sc, Surveyor.usual.scanOf disk ["p"] .default = .ok sc ∧
      ∀ n f, Path.IsName n → n ∉ Walk.systemFiles →
        (Location.text ["p", n]).utf8ByteSize ≤ pathLimit → es.lookup n = some f →
        f.isDirectory = false → ∃ r ∈ sc.files, r.path = n ∧ r.language = languageOf .default n ∧
          r.size = f.size ∧ r.modifiedNs = f.modified := by
  obtain ⟨st, hst⟩ := (Surveyor.walkSettings_isOk_iff .default).mpr (.inr (.inr (by decide)))
  obtain ⟨hdepth, hpatterns⟩ := Surveyor.of_walkSettings hst
  obtain ⟨rfl, -⟩ := Walk.reach?_of_checkRoot areNames_root h.isThere h.check
  have hdeep : st.maxDepth = 4 := hdepth
  have hleast : 1 ≤ st.maxDepth := by omega
  have hstart := h.startsAt Surveyor.usual st
  have hrules : Walk.rules st disk ["p"] = [] := by
    rw [Walk.rules_of_none areNames_root h.isThere hignore, hpatterns]
    rfl
  obtain ⟨sc, hsc⟩ := (Walk.scan_isOk_iff h.isTree hstart hleast).mpr fun dirs hreaches => by
    have hlength : (dirs.length : Int) ≤ st.maxDepth - 1 := hreaches.depth
    unfold Walk.levelLimit
    omega
  rw [Surveyor.scan_scopeOf] at hsc
  have hexact := Walk.isExact_of_scan hsc h.isTree hleast h.isThere
  refine ⟨sc, ?_, ?_⟩
  · unfold Surveyor.scanOf
    rw [hst]
    exact hsc
  · intro n f hn hsystem hshort hthere hfile
    have hreach : (Entry.directory es b true).reach? [n] = some f := by
      rw [Entry.reach?_cons, Entry.isSearchable_directory, if_pos rfl]
      exact Option.bind_eq_some_iff.mpr ⟨f, hthere, rfl⟩
    have hadmits := hstart.admits areNames_root hrules hleast hn hsystem hshort hreach hfile
    exact ⟨_, (hexact.mem_files _).mpr ⟨[], n, f, hadmits, rfl⟩, Path.ofSegments_singleton n,
      (language_classify _).trans (congrArg _ (Path.ofSegments_singleton n)), rfl, rfl⟩

/-- A survey of the project comes to the module and to the link. -/
theorem exists_gathered_turnedDisk :
    ∃ sc found, ((Surveyor.usual.gathered ["p"] .default).run turnedWorkspace).1 = .ok (sc, found) ∧
      ∀ n ∈ ["a.py", "b.js"], ∃ r ∈ sc.files, r.path = n ∧ r.language = languageOf .default n := by
  obtain ⟨sc, hscan, hfiles⟩ := exists_scanOf_default isReadable_turnedDisk rfl
  have hsigned := Surveyor.usual.isSome_signatureOf?_of_lt (o := .default) (by decide)
  have hevidence := congrArg Prod.fst
    (Surveyor.usual.evidenceOf_uncached turnedDisk 0 (o := .default) rfl sc)
  rw [if_pos hsigned] at hevidence
  refine ⟨sc, _, Surveyor.gathered_eq_ok_iff.mpr ⟨hscan, hevidence⟩, ?_⟩
  simp only [List.forall_mem_cons]
  refine ⟨?_, ?_, by simp⟩
  · obtain ⟨r, hr, hpath, hlanguage, -⟩ :=
      hfiles "a.py" _ (by decide) (by decide) (by decide) rfl rfl
    exact ⟨r, hr, hpath, hlanguage⟩
  · obtain ⟨r, hr, hpath, hlanguage, -⟩ :=
      hfiles "b.js" _ (by decide) (by decide) (by decide) rfl rfl
    exact ⟨r, hr, hpath, hlanguage⟩

/-- The report on the module agrees with a survey of the project. -/
theorem ofFile_agrees_module :
    ∃ sc found r,
      ((Surveyor.usual.gathered ["p"] .default).run turnedWorkspace).1 = .ok (sc, found) ∧
      r ∈ sc.files ∧ r.path = "a.py" ∧ ∃ e report, Assoc.get? r.path found = some e ∧
        ofFile .default (Surveyor.usual.rulesFor .default) Options.defaultFileSize turnedDisk ["p"]
          r.path = .ok report ∧
        Agrees (Surveyor.usual.rulesFor .default) "import os\n".toList r e report := by
  obtain ⟨sc, found, hrun, hfiles⟩ := exists_gathered_turnedDisk
  obtain ⟨r, hr, hpath, hlanguage⟩ := hfiles "a.py" (by simp)
  refine ⟨sc, found, r, hrun, hr, hpath, ?_⟩
  have hsource := isCountable_of_language hlanguage
  have hfile : turnedDisk.at? (["p"] ++ Path.components r.path) =
      some (.file (Text.Utf8.encode "import os\n".toList) 7) := by
    have hcomponents : Path.components "a.py" = ["a.py"] := by decide
    rw [hpath, hcomponents]
    rfl
  have htext : Text.Utf8.decode? (Text.Utf8.encode "import os\n".toList) =
      some "import os\n".toList := by decide
  refine ofFile_agrees (s := Surveyor.usual) isTree_turnedDisk hrun hr hsource hfile htext
    (by decide) (by decide) ?_
  intro cache hcache
  cases hcache
  exact Gathering.isHonest_none _ r

/-- Whether the usual survey of a project and the report on one of its source files, under the same
options and for a text that is not too long, differ in some way. -/
def DiffersFromSurvey (w : Workspace) (o : Options)
    (how : FileRecord → Evidence → FileReport → Prop) : Prop :=
  ∃ sc found r e report octets text,
    ((Surveyor.usual.gathered ["p"] o).run w).1 = .ok (sc, found) ∧ r ∈ sc.files ∧
    Tables.default.isCountable r.language = true ∧
    w.disk.readOctets (Path.join (Location.text ["p"]) r.path) = .ok octets ∧
    Text.Utf8.decode? octets = some text ∧ (octets.length : Int) ≤ o.maxFileSize ∧
    Assoc.get? r.path found = some e ∧
    ofFile .default (Surveyor.usual.rulesFor o) o.maxFileSize w.disk ["p"] r.path = .ok report ∧
    how r e report

/-- The report on the link is one on the module, and so in another language than the record of the
link. -/
theorem differsFromSurvey_turnedWorkspace :
    DiffersFromSurvey turnedWorkspace .default fun r _ report => report.language ≠ r.language := by
  obtain ⟨sc, found, hrun, hfiles⟩ := exists_gathered_turnedDisk
  obtain ⟨r, hr, hpath, hlanguage⟩ := hfiles "b.js" (by simp)
  have hsource : Tables.default.isCountable r.language = true := by
    rw [hlanguage]
    decide
  have hread : turnedDisk.readOctets (Path.join (Location.text ["p"]) r.path) =
      .ok (Text.Utf8.encode "import os\n".toList) := by
    rw [hpath]
    decide
  have hreport : ofFile .default (Surveyor.usual.rulesFor .default) Options.default.maxFileSize
      turnedDisk ["p"] r.path = .ok (ofRecord (Surveyor.usual.rulesFor .default)
        (recordAt .default ["p"] ["p", "a.py"] 10 7 "import os\n".toList)
          "import os\n".toList) := by
    rw [hpath]
    rfl
  obtain ⟨hscan, hevidence⟩ := Surveyor.gathered_eq_ok_iff.mp hrun
  obtain ⟨st, -, hsc⟩ := Surveyor.scanOf_eq_ok hscan
  have hconsistent := Walk.isConsistent_of_scan hsc isTree_turnedDisk
  obtain ⟨cache, -, rfl⟩ := Surveyor.evidenceOf_eq_ok hevidence
  refine ⟨sc, _, r, _, _, _, "import os\n".toList, hrun, hr, hsource, hread, by decide,
    by decide, Gathering.get?_gather hconsistent.nodup_files hr hsource cache, hreport, ?_⟩
  have hmodule : (ofRecord (Surveyor.usual.rulesFor .default)
      (recordAt .default ["p"] ["p", "a.py"] 10 7 "import os\n".toList)
        "import os\n".toList).language =
      languageOf .default "a.py" := language_classify _
  dsimp only
  rw [hmodule, hlanguage]
  decide

/-! ### An entry that is out of date -/

/-- The usual options, with the cache. -/
def cachedOptions : Options := { Options.default with cache := true }

/-- What is kept of a module of six octets that are no text. -/
def staleStored : EvidenceCache.Stored where
  record := ⟨"a.py", 6, ".py", .unknown, .ofInt 0, 7⟩
  signature := (Surveyor.usual.signatureOf? cachedOptions).getD ""
  evidence := ⟨"a.py", none, [], [], []⟩

/-- The stale entry of the example is one that a cache can take. -/
theorem isFit_staleStored : staleStored.IsFit := ⟨rfl, by simp [staleStored]⟩

/-- It can be written. -/
theorem isWritable_staleStored : staleStored.IsWritable :=
  ⟨⟨Json.lt_shownBelow_of_lt_ten (n := 6) (by decide),
    Json.lt_shownBelow_of_lt_ten (n := 7) (by decide)⟩, nofun, by simp [staleStored]⟩

/-- What the cache holds. -/
def staleMap (path : String) : Option EvidenceCache.Stored :=
  if path = "a.py" then some staleStored else none

/-- So can the map that holds nothing else. -/
theorem areWritable_staleMap : EvidenceCache.AreWritable staleMap := by
  intro path s hs
  unfold staleMap at hs
  split at hs
  · cases hs
    exact isWritable_staleStored
  · cases hs

/-- The cache with that alone. -/
def staleCache : EvidenceCache :=
  EvidenceCache.empty.store staleStored.record staleStored.signature staleStored.evidence

/-- A disk with the cache beside a module that was written since, with as many octets and the same
time. -/
def staleDisk : Entry :=
  .ofEntries [("p", .ofEntries [("a.py", Surveyor.oneLine),
    (".devassist", .ofEntries [("cache", .ofEntries
      [("evidence.json", .file (Text.Utf8.encode staleCache.text) 7)])])])]

/-- A workspace with the disk. -/
def staleWorkspace : Workspace := ⟨staleDisk, [], [], 0, [], []⟩

/-- The disk with the stale entry on it is a tree. -/
theorem isTree_staleDisk : staleDisk.IsTree := by
  have hcache : (Entry.ofEntries
      [("evidence.json", .file (Text.Utf8.encode staleCache.text) 7)]).IsTree :=
    Entry.isTree_singleton (by decide) trivial
  refine Entry.isTree_singleton (by decide) (Entry.isTree_directory.mpr ⟨by decide, ?_⟩)
  simp only [List.forall_mem_cons]
  exact ⟨⟨by decide, trivial⟩, ⟨by decide, Entry.isTree_singleton (by decide) hcache⟩, by simp⟩

/-- The file of the example is readable there too, and no ignore file is beside it. -/
theorem isReadable_staleDisk : ∃ es, es.lookup "a.py" = some Surveyor.oneLine ∧
    es.lookup Walk.ignoreFile = none ∧ Surveyor.IsReadable staleDisk ["p"] (.ofEntries es) :=
  ⟨_, rfl, rfl, isTree_staleDisk, rfl, rfl, rfl⟩

/-- A survey opens the cache. -/
theorem cacheOf_staleDisk : ∃ c, Surveyor.cacheOf staleDisk ["p"] cachedOptions = .ok (some c) ∧
    EvidenceCache.Represents staleMap c := by
  have hnames : Path.AreNames (["p"] ++ [".devassist", "cache", "evidence.json"]) := by
    simp only [Path.areNames_append, Path.areNames_cons, Path.areNames_nil]
    decide
  have hfile : staleDisk.reach? (["p"] ++ [".devassist", "cache", "evidence.json"]) =
      some (.file (Text.Utf8.encode staleCache.text) 7) := rfl
  have hsaved : EvidenceCache.IsSavedAt staleMap staleDisk
      (["p"] ++ [".devassist", "cache", "evidence.json"]) :=
    .inr ⟨by decide, areWritable_staleMap, staleCache, 7, hfile,
      EvidenceCache.Represents.empty.store isFit_staleStored⟩
  obtain ⟨c, hload, hc, -⟩ :=
    hsaved.load_eq hnames (Entry.isStraight_of_at? (Entry.at?_of_reach? hfile) (by simp))
  have hpath : Surveyor.cachePath ["p"] cachedOptions =
      Location.text (["p"] ++ [".devassist", "cache", "evidence.json"]) := by decide
  refine ⟨c, ?_, hc⟩
  unfold Surveyor.cacheOf
  rw [hpath, hload]
  rfl

/-- The project has two files: the module and the cache. -/
theorem at?_staleDisk {names : Location} {f : Entry} (h : staleDisk.at? ("p" :: names) = some f)
    (hfile : f.isDirectory = false) :
    names = ["a.py"] ∧ f = Surveyor.oneLine ∨ names = [".devassist", "cache", "evidence.json"] := by
  have hchild : ∀ {es : List (String × Entry)} {n : String} {l : Location},
      (Entry.ofEntries es).at? (n :: l) = some f → ∃ c, (n, c) ∈ es ∧ c.at? l = some f := by
    intro es n l h
    rw [Entry.at?_cons, Option.bind_eq_some_iff] at h
    obtain ⟨c, hc, h⟩ := h
    exact ⟨c, Entry.mem_of_lookup hc, h⟩
  have hnil : ∀ {es : List (String × Entry)} {l : Location},
      (Entry.ofEntries es).at? l = some f → ∃ n rest, l = n :: rest := by
    intro es l h
    cases l with
    | nil =>
      cases h
      cases hfile
    | cons n rest => exact ⟨n, rest, rfl⟩
  obtain ⟨c, hc, h⟩ := hchild h
  cases List.mem_singleton.mp hc
  obtain ⟨n, rest, rfl⟩ := hnil h
  obtain ⟨c, hc, h⟩ := hchild h
  rcases List.mem_pair.mp hc with hc | hc
  · cases hc
    cases rest with
    | nil =>
      cases h
      exact .inl ⟨rfl, rfl⟩
    | cons m rest => cases h
  · cases hc
    obtain ⟨n, rest, rfl⟩ := hnil h
    obtain ⟨c, hc, h⟩ := hchild h
    cases List.mem_singleton.mp hc
    obtain ⟨n, rest, rfl⟩ := hnil h
    obtain ⟨c, hc, h⟩ := hchild h
    cases List.mem_singleton.mp hc
    cases rest with
    | nil => exact .inr rfl
    | cons m rest => cases h

/-- Of the files of the project only the module is one of a source language. -/
theorem eq_module_of_isCountable {limit : Int} {sc : Scan}
    (h : Walk.IsConsistent .default limit staleDisk ["p"] sc) {r : FileRecord} (hr : r ∈ sc.files)
    (hsource : Tables.default.isCountable r.language = true) :
    r.path = "a.py" ∧ r.size = 6 ∧ r.modifiedNs = 7 := by
  obtain ⟨names, f, hat⟩ := h.exists_of_mem r hr
  rcases at?_staleDisk (Entry.at?_of_reach? hat.reached) hat.isFile with ⟨rfl, rfl⟩ | rfl
  · rw [hat.record_eq]
    exact ⟨Path.ofSegments_singleton _, rfl, rfl⟩
  · have hcache : Tables.default.isCountable (languageOf .default
        (Path.ofSegments [".devassist", "cache", "evidence.json"])) = false := by decide
    have hlanguage : r.language = languageOf .default _ :=
      (congrArg FileRecord.language hat.record_eq).trans (language_classify _)
    rw [hlanguage, hcache] at hsource
    cases hsource

/-- The cache has something for a file that looks like the module. -/
theorem find?_staleMap {c : EvidenceCache} (hc : EvidenceCache.Represents staleMap c)
    {r : FileRecord} (h : r.path = "a.py" ∧ r.size = 6 ∧ r.modifiedNs = 7) :
    (c.find? r staleStored.signature).map KeptEvidence.evidence = some staleStored.evidence := by
  obtain ⟨hpath, hsize, htime⟩ := h
  have hgood : EvidenceCache.Shelf.isGood r staleStored.signature staleStored = true := by
    unfold EvidenceCache.Shelf.isGood
    rw [hsize, htime, beq_self_eq_true, Bool.true_and]
    decide
  rw [hc.find?_eq, hpath, show staleMap "a.py" = some staleStored from rfl,
    Option.filter_some_pos hgood]
  rfl

/-- A survey with the cache takes what is kept of the module for what is in it. -/
theorem exists_gathered_staleDisk :
    ∃ sc found r,
      ((Surveyor.usual.gathered ["p"] cachedOptions).run staleWorkspace).1 = .ok (sc, found) ∧
      r ∈ sc.files ∧ r.path = "a.py" ∧ r.language = languageOf .default "a.py" ∧
      Assoc.get? r.path found = some staleStored.evidence := by
  obtain ⟨es, hmodule, hignore, hreadable⟩ := isReadable_staleDisk
  obtain ⟨sc, hscan, hfiles⟩ := exists_scanOf_default hreadable hignore
  obtain ⟨r, hr, hpath, hlanguage, -⟩ :=
    hfiles "a.py" _ (by decide) (by decide) (by decide) hmodule rfl
  obtain ⟨c, hcache, hc⟩ := cacheOf_staleDisk
  obtain ⟨st, -, hsc⟩ := Surveyor.scanOf_eq_ok hscan
  have hconsistent := Walk.isConsistent_of_scan hsc isTree_staleDisk
  have hsource := isCountable_of_language hlanguage
  have hfound : ∀ r' ∈ sc.files, Tables.default.isCountable r'.language = true →
      (c.find? r' staleStored.signature).map KeptEvidence.evidence = some staleStored.evidence :=
    fun r' hr' hsource' => find?_staleMap hc (eq_module_of_isCountable hconsistent hr' hsource')
  have hall : ∀ r' ∈ sc.files, Tables.default.isCountable r'.language = true →
      (c.find? r' staleStored.signature).isSome := fun r' hr' hsource' => by
    obtain ⟨k, hk, -⟩ := Option.map_eq_some_iff.mp (hfound r' hr' hsource')
    exact Option.isSome_iff_exists.mpr ⟨k, hk⟩
  -- the cache is left as it is, so that nothing keeps it from being written
  obtain ⟨c', keep, hgather, hentries⟩ :=
    Gathering.gather_of_found (g := Surveyor.usual.gatheringOf staleDisk ["p"] cachedOptions) hall
  have hshow : (c'.prune keep).toDatum.isShowable = true := by
    refine ((hc.of_entries hentries).prune keep).isShowable_iff.mpr ?_
    intro path s hs
    dsimp only at hs
    split at hs
    · exact areWritable_staleMap path s hs
    · cases hs
  have hnamed : Surveyor.withNamedRules _ = .ok _ :=
    Surveyor.withNamedRules_gather (g := Surveyor.usual.gatheringOf staleDisk ["p"] cachedOptions)
      hconsistent.nodup_files fun r' _ k hk f hf => by
        -- the cache has nothing else, and no findings
        obtain ⟨s, hs, hevidence⟩ := hc.exists_of_find? hk
        unfold staleMap at hs
        split at hs
        · cases hs
          rw [← hevidence] at hf
          cases hf
        · cases hs
  have hroot : sc.root = ["p"] := hconsistent.root_eq
  have hpath' : Surveyor.cachePath ["p"] cachedOptions =
      Location.text ["p", ".devassist", "cache", "evidence.json"] := by decide
  have hevidence := Surveyor.fst_evidenceOf_of_isShowable sc (s := Surveyor.usual)
    (hroot ▸ hcache) (Surveyor.usual.isSome_signatureOf?_of_lt (by decide)) (hroot ▸ hgather) hshow
    (hroot ▸ hpath') (by simp only [Path.areNames_cons, Path.areNames_nil]; decide) 0
  rw [hroot] at hevidence
  refine ⟨sc, _, r, Surveyor.gathered_eq_ok_iff.mpr ⟨hscan, hevidence.trans hnamed⟩, hr, hpath,
    hlanguage, ?_⟩
  rw [Gathering.get?_gather hconsistent.nodup_files hr hsource, Gathering.fst_visit_some]
  exact congrArg some (congrArg (Option.getD · _) (hfound r hr hsource))

/-- The lines of the module are counted for the report on it, and not by the survey. -/
theorem differsFromSurvey_staleWorkspace :
    DiffersFromSurvey staleWorkspace cachedOptions fun _ e report =>
      e.lines ≠ some (report.lines.total : Int) := by
  obtain ⟨sc, found, r, hrun, hr, hpath, hlanguage, hkept⟩ := exists_gathered_staleDisk
  have hsource := isCountable_of_language hlanguage
  have hfile : staleDisk.reach? (["p"] ++ ["a.py"]) =
      some (.file (Text.Utf8.encode "x = 1\n".toList) 7) := rfl
  have hnames : Path.AreNames (["p"] ++ ["a.py"]) := by
    simp only [Path.areNames_append, Path.areNames_cons, Path.areNames_nil]
    decide
  have hcheck : Entry.checkPath (Location.text (["p"] ++ ["a.py"])) = .ok () := by rfl
  have hjoin : Path.join (Location.text ["p"]) "a.py" = Location.text (["p"] ++ ["a.py"]) := by
    decide
  have hread : staleDisk.readOctets (Path.join (Location.text ["p"]) r.path) =
      .ok (Text.Utf8.encode "x = 1\n".toList) := by
    rw [hpath, hjoin, Entry.readOctets_text_of_file hnames hfile, hcheck]
    rfl
  have hsize : ((Text.Utf8.encode "x = 1\n".toList).length : Int) ≤ cachedOptions.maxFileSize := by
    decide
  obtain ⟨report, hreport⟩ : ∃ report, ofFile .default (Surveyor.usual.rulesFor cachedOptions)
      cachedOptions.maxFileSize staleDisk ["p"] r.path = .ok report := by
    rw [hpath, ← Path.ofSegments_singleton "a.py"]
    exact ⟨_, ofFile_of_reach? hnames (List.cons_ne_nil _ _) hfile hcheck hsize⟩
  exact ⟨sc, found, r, _, _, _, "x = 1\n".toList, hrun, hr, hsource, hread, by decide, hsize,
    hkept, hreport, (Option.some_ne_none _).symm⟩

/-- **A report differs from the survey on a link, and where the cache has something else for the
file.** -/
theorem ofFile_differs :
    (DiffersFromSurvey turnedWorkspace .default fun r _ report => report.language ≠ r.language) ∧
      DiffersFromSurvey staleWorkspace cachedOptions fun _ e report =>
        e.lines ≠ some (report.lines.total : Int) :=
  ⟨differsFromSurvey_turnedWorkspace, differsFromSurvey_staleWorkspace⟩

end FileReport

end ProjectSurvey
