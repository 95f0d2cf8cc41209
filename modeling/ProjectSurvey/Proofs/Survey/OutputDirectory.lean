import ProjectSurvey.Proofs.Survey.Coherence
import ProjectSurvey.Proofs.Walk.Exclusion

/-!
# The directory for output

A survey passes over the directory for output, so that it does not survey what earlier ones left
there. **What it surveys is what there is but for the files in directories that are called as the
path for output begins** (`Surveyor.conduct_passesOver`): the path is one from the root of the
project, without a step up, and it is its first name that is passed over, wherever a directory of
that name lies. So nothing in the directory for output is surveyed, and neither is a file in a
namesake of its first directory (`Surveyor.scanOf_namesakeDisk`).
-/

namespace ProjectSurvey

/-- The options without a directory for output. -/
def Options.withoutOutput (o : Options) : Options := { o with outputDirectory := "" }

namespace Surveyor

open Entry

variable {o : Options} {out : String} {rest : List String}

/-- The top of a relative path is its first component. -/
theorem outputTop_of_components (hrelative : Path.isAbsolute o.outputDirectory = false)
    (hcomponents : Path.components o.outputDirectory = out :: rest) :
    outputTop o.outputDirectory = .ok [out] := by
  have hempty : o.outputDirectory ≠ "" := by
    intro hempty
    rw [hempty] at hcomponents
    cases hcomponents
  unfold outputTop
  rw [if_neg hempty, hrelative, if_neg Bool.false_ne_true, hcomponents]

/-- How a project is walked with and without a directory for output. -/
theorem walkSettings_withoutOutput (hrelative : Path.isAbsolute o.outputDirectory = false)
    (hcomponents : Path.components o.outputDirectory = out :: rest) :
    ∃ st ignored, walkSettings o.withoutOutput = .ok st ∧
      walkSettings o = .ok { st with ignoreDirectories := ignored } ∧
      ∀ n, n ∈ ignored ↔ n ∈ st.ignoreDirectories ∨ n = out := by
  unfold walkSettings
  rw [outputTop_of_components hrelative hcomponents]
  refine ⟨_, Text.distinct (o.ignoreDirectories ++ [out]), rfl, rfl, ?_⟩
  intro n
  show n ∈ Text.distinct (o.ignoreDirectories ++ [out]) ↔
    n ∈ Text.distinct (o.ignoreDirectories ++ []) ∨ n = out
  rw [Text.mem_distinct, Text.mem_distinct, List.mem_append, List.append_nil, List.mem_singleton]

/-- **The walk of a survey finds the files of the walk without a directory for output that lie in no
directory of its first name.** -/
theorem scanOf_passesOver {s : Surveyor} {disk : Entry} {root : Location} {plain : Scan}
    (htree : disk.IsTree) (hrelative : Path.isAbsolute o.outputDirectory = false)
    (hcomponents : Path.components o.outputDirectory = out :: rest)
    (hplain : s.scanOf disk root o.withoutOutput = .ok plain) :
    ∃ sc, s.scanOf disk root o = .ok sc ∧ sc.tree.allFiles = sc.files ∧
      sc.files = plain.files.filter fun r => decide (out ∉ Walk.directoriesOf r.path) := by
  obtain ⟨st, ignored, hst, hst', hignored⟩ := walkSettings_withoutOutput hrelative hcomponents
  unfold scanOf at hplain ⊢
  rw [hst] at hplain
  rw [hst']
  exact Walk.files_passing (s := s.scopeOf disk root st) hignored htree hplain

/-- **What is surveyed is what there is but for the files in directories that are called as the path
for output begins**; nothing in the directory for output is among it. -/
theorem conduct_passesOver {s : Surveyor} {w : Workspace} {path : String}
    {given : Option Options} {wishes : Overrides} {root : Location} {plain : Scan}
    (htree : w.disk.IsTree) (hroot : ((Work.locateProject path).run w).1 = .ok root)
    (ho : ((options root given wishes).run w).1 = .ok o)
    (hrelative : Path.isAbsolute o.outputDirectory = false)
    (hcomponents : Path.components o.outputDirectory = out :: rest)
    (hplain : s.scanOf w.disk root o.withoutOutput = .ok plain) :
    ∃ sc, s.scanOf w.disk root o = .ok sc ∧
      sc.files = plain.files.filter (fun r => decide (out ∉ Walk.directoriesOf r.path)) ∧
      (∀ r ∈ sc.files,
        ¬ Path.components o.outputDirectory <+: Walk.directoriesOf r.path) ∧
      ∀ survey, ((s.conduct path given wishes).run w).1 = .ok survey →
        survey.tree.allFiles = sc.files := by
  obtain ⟨sc, hsc, htreeFiles, hfiles⟩ :=
    scanOf_passesOver htree hrelative hcomponents hplain
  refine ⟨sc, hsc, hfiles, ?_, ?_⟩
  · intro r hr hle
    rw [hfiles, List.mem_filter, decide_eq_true_eq] at hr
    rw [hcomponents] at hle
    exact hr.2 (hle.subset List.mem_cons_self)
  · intro survey hsurvey
    obtain ⟨root', o', sc', found, disk, hroot', -, ho', hsc', -, rfl⟩ :=
      conduct_eq_ok_iff.mp hsurvey
    cases hroot.symm.trans hroot'
    cases ho.symm.trans ho'
    cases hsc.symm.trans hsc'
    exact htreeFiles

/-! ### A directory with a namesake -/

/-- A project with a directory for output and another directory of its name. -/
def namesakeProject : Entry :=
  .ofEntries [("a.py", .file [] 7), ("report", .ofEntries [("x.py", .file [] 7)]),
    ("src", .ofEntries [("report", .ofEntries [("b.py", .file [] 7)])])]

/-- A disk with the project. -/
def namesakeDisk : Entry := .ofEntries [("p", namesakeProject)]

/-- Options with that directory for output. -/
def reportOptions : Options := { Options.default with outputDirectory := "report" }

/-- Everything on the disk of the example can be read. -/
theorem isReadable_namesakeDisk : IsReadable namesakeDisk ["p"] namesakeProject := by
  refine ⟨isTree_singleton (by decide) (isTree_directory.mpr ⟨by decide, ?_⟩), rfl, rfl, rfl⟩
  simp only [List.forall_mem_cons]
  refine ⟨⟨by decide, trivial⟩, ⟨by decide, isTree_singleton (by decide) trivial⟩,
    ⟨by decide, isTree_singleton (by decide) (isTree_singleton (by decide) trivial)⟩, by simp⟩

/-- How the project is walked without a directory for output. -/
def plainSettings : WalkSettings :=
  ⟨Text.distinct (Options.defaultIgnore ++ []), 4, [], true, Options.defaultFileSize⟩

/-- Its options have settings for the walk. -/
theorem walkSettings_reportOptions : walkSettings reportOptions.withoutOutput = .ok plainSettings :=
  rfl

/-- There is no ignore file on it. -/
theorem rules_namesakeDisk : Walk.rules plainSettings namesakeDisk ["p"] = [] := by
  rw [Walk.rules_of_none FileReport.areNames_root isReadable_namesakeDisk.isThere rfl]
  rfl

/-- The way to the file in the namesake leads through two directories that can be listed. -/
theorem admits_namesakeDisk :
    (usual.scopeOf namesakeDisk ["p"] plainSettings).Admits namesakeProject ["src", "report"] "b.py"
      (.file [] 7) := by
  have htaken : ∀ names, Path.AreNames names →
      (Location.text (["p"] ++ names)).utf8ByteSize ≤ pathLimit →
      (usual.scopeOf namesakeDisk ["p"] plainSettings).isTaken (Path.ofSegments names) = true :=
    fun names hnames hsize => (Walk.Scope.isTaken_iff FileReport.areNames_root hnames).mpr hsize
  have hlisted : ∀ names ∈ [[], ["src"], ["src", "report"]],
      (usual.scopeOf namesakeDisk ["p"] plainSettings).IsListed namesakeProject names := by
    simp only [List.forall_mem_cons]
    exact ⟨⟨rfl, htaken [] (by decide) (by decide)⟩, ⟨rfl, htaken _ (by decide) (by decide)⟩,
      ⟨rfl, htaken _ (by decide) (by decide)⟩, by simp⟩
  have hreaches : (usual.scopeOf namesakeDisk ["p"] plainSettings).Reaches namesakeProject
      ["src", "report"] := by
    have hways : ∀ front n back, ["src", "report"] = front ++ n :: back →
        front = [] ∨ front = ["src"] := by
      intro front n back hway
      rcases front with _ | ⟨m, _ | ⟨k, front⟩⟩ <;> simp_all
    refine ⟨rfl, by decide, ?_, fun _ _ _ _ => ?_, ?_⟩
    · have hkept : ∀ n ∈ ["src", "report"], n ∉ Options.defaultIgnore ++ [] := by decide
      simpa only [scopeOf, plainSettings, Text.mem_distinct] using hkept
    · show isIgnored _ true (Walk.rules plainSettings namesakeDisk ["p"]) = false
      rw [rules_namesakeDisk]
      rfl
    · intro front n back hway
      rcases hways front n back hway with rfl | rfl
      · exact hlisted [] (by simp)
      · exact hlisted ["src"] (by simp)
  refine ⟨hreaches, hlisted _ (by simp), rfl, rfl, by decide, ?_, htaken _ (by decide) (by decide)⟩
  show isIgnored _ false (Walk.rules plainSettings namesakeDisk ["p"]) = false
  rw [rules_namesakeDisk]
  rfl

/-- The walk without a directory for output comes to the file in the namesake. -/
theorem exists_scanOf_namesakeDisk :
    ∃ plain, usual.scanOf namesakeDisk ["p"] reportOptions.withoutOutput = .ok plain ∧
      ∃ r ∈ plain.files, r.path = "src/report/b.py" := by
  obtain ⟨plain, hplain⟩ := (Walk.scan_isOk_iff isReadable_namesakeDisk.isTree
      (isReadable_namesakeDisk.startsAt usual plainSettings) (by decide)).mpr
    fun dirs hreaches => by
      have hlength : (dirs.length : Int) ≤ 4 - 1 := hreaches.depth
      unfold Walk.levelLimit
      omega
  rw [scan_scopeOf] at hplain
  have hexact := Walk.isExact_of_scan hplain isReadable_namesakeDisk.isTree (by decide)
    isReadable_namesakeDisk.isThere
  refine ⟨plain, ?_, _, (hexact.mem_files _).mpr ⟨_, _, _, admits_namesakeDisk, rfl⟩, by decide⟩
  unfold scanOf
  rw [walkSettings_reportOptions]
  exact hplain

/-- Overriding options and giving them an output directory commute. -/
theorem override?_outputDirectory (o : Options) (path : String) (wishes : Overrides) :
    { o with outputDirectory := path }.override? wishes =
      (o.override? wishes).map fun o => { o with outputDirectory := path } := by
  unfold Options.override?
  split <;> rfl

/-- A workspace with the disk. -/
def namesakeWorkspace : Workspace := ⟨namesakeDisk, [], [], 0, [], []⟩

/-- A survey of the project passes over both directories of the name. -/
theorem conduct_passesOver_namesakeDisk :
    namesakeWorkspace.disk.IsTree ∧
      ((Work.locateProject "/p").run namesakeWorkspace).1 = .ok ["p"] ∧
      ((options ["p"] (some reportOptions) Overrides.none).run namesakeWorkspace).1 =
        .ok reportOptions ∧
      Path.isAbsolute reportOptions.outputDirectory = false ∧
      Path.components reportOptions.outputDirectory = ["report"] ∧ ∃ plain sc,
        usual.scanOf namesakeWorkspace.disk ["p"] reportOptions.withoutOutput = .ok plain ∧
        usual.scanOf namesakeWorkspace.disk ["p"] reportOptions = .ok sc ∧
        sc.files = plain.files.filter
          fun r => decide ("report" ∉ Walk.directoriesOf r.path) := by
  obtain ⟨plain, hplain, -⟩ := exists_scanOf_namesakeDisk
  have hroot : ((Work.locateProject "/p").run namesakeWorkspace).1 = .ok ["p"] := by
    decide
  have ho : ((options ["p"] (some reportOptions) Overrides.none).run namesakeWorkspace).1 =
      .ok reportOptions := by
    unfold options
    dsimp only
    rw [pure_bind, reportOptions, override?_outputDirectory, override?_default]
    rfl
  have htree : namesakeWorkspace.disk.IsTree := isReadable_namesakeDisk.isTree
  obtain ⟨sc, hsc, hfiles, -⟩ :=
    conduct_passesOver (s := usual) htree hroot ho rfl rfl hplain
  exact ⟨htree, hroot, ho, rfl, rfl, plain, sc, hplain, hsc, hfiles⟩

/-- **A file outside the directory for output is dropped because of it**: the one in its
namesake. -/
theorem scanOf_namesakeDisk : ∃ plain sc,
    usual.scanOf namesakeDisk ["p"] reportOptions.withoutOutput = .ok plain ∧
      usual.scanOf namesakeDisk ["p"] reportOptions = .ok sc ∧
      ∃ r ∈ plain.files, r.path = "src/report/b.py" ∧
        ¬ Path.components reportOptions.outputDirectory <+: Walk.directoriesOf r.path ∧
        r ∉ sc.files := by
  obtain ⟨plain, hplain, r, hr, hpath⟩ := exists_scanOf_namesakeDisk
  obtain ⟨sc, hsc, -, hfiles⟩ :=
    scanOf_passesOver isReadable_namesakeDisk.isTree (o := reportOptions) rfl rfl hplain
  refine ⟨plain, sc, hplain, hsc, r, hr, hpath, ?_, ?_⟩
  · rw [hpath]
    decide
  · rw [hfiles, List.mem_filter, hpath]
    exact fun h => absurd h.2 (by decide)

end Surveyor

end ProjectSurvey
