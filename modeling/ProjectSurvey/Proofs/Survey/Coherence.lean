import ProjectSurvey.Proofs.CommandLine.Effects
import ProjectSurvey.Proofs.FileReport
import ProjectSurvey.Proofs.Findings
import ProjectSurvey.Proofs.Graph.Nodes
import ProjectSurvey.Proofs.Survey.Parts

/-!
# The parts of a survey agree

The parts of a survey are made in different stages from different things: the tree and the layout
from the walk, the graph and the metrics from the evidence, the dependencies from the manifests, the
findings from all of them. **A survey with the built-in rules and without the cache is coherent**
(`Surveyor.conduct_isCoherent`): what one part says of the project is what the others say.

The argument has two halves. `Survey.assemble_isCoherent` is about the material alone: a consistent
scan, manifests among the files at the root and evidence of some of the files. That a survey is made
of such material is read off what its steps come to (`Surveyor.conduct_eq_ok_iff`), whatever options
are given.
-/

namespace ProjectSurvey

/-- Whether a rule is among those with findings. -/
def Verdict.Reports (v : Verdict) (id : String) : Prop := ∃ f ∈ v.findings, f.ruleId = .text id

namespace Survey

/-- Whether the parts of a survey, made under some options of a project with some files, agree. -/
structure IsCoherent (v : Survey) (o : Options) (files : List FileRecord) : Prop where
  /-- The tree holds the files of the walk. -/
  allFiles_tree : v.tree.allFiles = files
  /-- The findings about security are those among all findings, in their order. -/
  security_eq : v.security = v.verdict.findings.filter Finding.isSecurity
  /-- A finding that names a file names one of the walk. -/
  file_of_finding : ∀ f ∈ v.verdict.findings, f.file ≠ .null → ∃ r ∈ files, f.file = .text r.path
  /-- No node of the graph is there twice. -/
  nodup_nodes : (Assoc.keys v.graph.nodes).Nodup
  /-- A node that is no package is a file of the walk. -/
  file_of_node : ∀ p ∈ v.graph.nodes, p.2.isExternal = false → ∃ r ∈ files, r.path = p.1
  /-- The source files are the nodes that are neither packages nor assets. -/
  totalFiles_eq : v.metrics.totalFiles = (v.graph.nodes.countP fun p => p.2.isSource : Nat)
  /-- No extension is in the histogram twice. -/
  nodup_histogram : (Assoc.keys v.metrics.histogram).Nodup
  /-- The histogram counts what the tree counts. -/
  sum_histogram : (v.metrics.histogram.map Prod.snd).sum = v.tree.fileCount
  /-- No directory is in the layout twice. -/
  nodup_directories : (Assoc.keys v.layout.directories).Nodup
  /-- The tree counts the files at its root and those that the layout counts. -/
  fileCount_eq : v.tree.fileCount =
    v.tree.files.length + (v.layout.directories.map fun d => d.2.fileCount).sum
  /-- No package is both for production and for development. -/
  disjoint : v.dependencies.production.Disjoint v.dependencies.development
  /-- Missing middleware is reported for a server framework without hardening packages. -/
  reports_middleware : v.verdict.Reports "missing-security-middleware" ↔
    Rule.stays o.disabledRules "missing-security-middleware" = true ∧
      (∃ n ∈ v.profile.frameworks, n ∈ Tables.serverFrameworks) ∧ v.dependencies.security = []
  /-- Complexity is reported if it is high. -/
  reports_complexity : v.verdict.Reports "high-complexity" ↔
    Rule.stays o.disabledRules "high-complexity" = true ∧ v.metrics.complexity = .high
  /-- Security comes first if there is a finding about it. -/
  priority : v.advice.priority.head? = some "security" ↔ v.security ≠ []

/-- What the checks of a project see of the material. -/
def Material.context (m : Material) : ProjectContext where
  rootFiles := m.scan.rootFiles
  records := m.scan.files
  tree := m.scan.tree
  profile := ProjectProfile.detect m.tables m.scan.rootFiles m.manifests
  manifests := m.manifests
  metrics := Metrics.measure m.tables m.scan.files m.evidence
  ignoreText := m.ignoreText
  tables := m.tables
  packages := (Dependencies.ofManifests m.tables m.manifests).lowered

/-- The verdict of a survey is that of the engine on its evidence. -/
theorem verdict_assemble (m : Material) :
    (assemble m).verdict = Engine.evaluate m.rules m.context m.evidence := rfl

/-- **A survey of consistent material is coherent.** -/
theorem assemble_isCoherent {m : Material} {o : Options} {t : Tables} {limit : Int} {disk : Entry}
    {root : Location} (hscan : Walk.IsConsistent t limit disk root m.scan)
    (hrules : m.rules = Rule.table o.disabledRules o.oversizedLines [])
    (hmanifests : Assoc.keys m.manifests ⊆ m.scan.rootFiles) {read : List ReadFile}
    (hevidence : m.evidence = ReadFile.evidence m.rules read)
    (hread : ∀ x ∈ read, x.1 ∈ m.scan.files) :
    (assemble m).IsCoherent o m.scan.files := by
  have hdirectories : (assemble m).layout.directories =
      m.scan.tree.directories.map fun d => (d.name, Layout.summarize m.tables d) :=
    Layout.directories_ofTree m.tables hscan.nodup_directories
  refine
    { allFiles_tree := hscan.allFiles_tree
      security_eq := rfl
      file_of_finding := ?_
      nodup_nodes := Graph.nodup_keys_build
      file_of_node := ?_
      totalFiles_eq := ?_
      nodup_histogram := Metrics.nodup_histogram _ _ _
      sum_histogram := ?_
      nodup_directories := ?_
      fileCount_eq := ?_
      disjoint := Dependencies.disjoint_ofManifests
      reports_middleware := ?_
      reports_complexity := ?_
      priority := Advice.head?_priority_iff _ _ _ _ }
  · intro f hf hfile
    rw [verdict_assemble, hevidence, hrules] at hf
    obtain ⟨n, hn, hplace⟩ := Engine.file_of_mem_findings hmanifests hf hfile
    have hmem : n ∈ m.scan.files.map FileRecord.path := by
      rcases hplace with hread' | hroot
      · obtain ⟨x, hx, rfl⟩ := List.mem_map.mp hread'
        exact List.mem_map_of_mem (hread x hx)
      · exact hscan.rootFiles_subset hroot
    obtain ⟨r, hr, rfl⟩ := List.mem_map.mp hmem
    exact ⟨r, hr, hn⟩
  · intro p hp hinternal
    exact List.mem_map.mp (Graph.path_mem_of_internal hscan.nodup_files hp hinternal)
  · exact congrArg Nat.cast (Graph.countP_isSource hscan.nodup_files).symm
  · exact (Metrics.sum_histogram _ _ _).trans (congrArg Nat.cast hscan.fileCount_tree.symm)
  · rw [hdirectories, Assoc.keys, List.map_map]
    exact hscan.nodup_directories
  · rw [hdirectories, List.map_map]
    exact hscan.fileCount_eq_add
  · rw [Verdict.Reports, verdict_assemble, hrules,
      Engine.exists_finding_table_iff (List.mem_of_getElem? (i := 6) rfl)]
    refine and_congr_right fun _ => ProjectChecks.missingSecurityMiddleware_ne_nil_iff.trans ?_
    exact and_congr_right fun _ => Dependencies.security_eq_nil_iff.symm
  · rw [Verdict.Reports, verdict_assemble, hrules,
      Engine.exists_finding_table_iff (List.mem_of_getElem? (i := 4) rfl)]
    exact and_congr_right fun _ => ProjectChecks.highComplexity_ne_nil_iff

end Survey

/-! ### What a survey is made of -/

/-- Without a cache the evidence is that of some of the files, each with what was read of it. -/
theorem Gathering.exists_read_of_gather_none (g : Gathering) (records : List FileRecord) :
    ∃ read, (g.gather none records).1 = ReadFile.evidence g.rules read ∧
      ∀ x ∈ read, x.1 ∈ records := by
  refine ⟨(records.filter fun r => g.tables.isCountable r.language).map fun r => (r, g.read r.path),
    ?_, ?_⟩
  · rw [Gathering.gather_none, ReadFile.evidence, List.map_map]
    rfl
  · intro x hx
    obtain ⟨r, hr, rfl⟩ := List.mem_map.mp hx
    exact (List.mem_filter.mp hr).1

namespace Surveyor

open Work

variable {s : Surveyor} {w : Workspace} {path : String} {given : Option Options}
  {wishes : Overrides} {survey : Survey}

/-- **A survey is what its steps come to**: the root, which can be used, the options, the walk, the
manifests and the evidence. -/
theorem conduct_eq_ok_iff : ((s.conduct path given wishes).run w).1 = .ok survey ↔
    ∃ root o sc found disk, ((Work.locateProject path).run w).1 = .ok root ∧
      Walk.checkRoot w.disk root root.text = .ok () ∧
      ((options root given wishes).run w).1 = .ok o ∧ s.scanOf w.disk root o = .ok sc ∧
      s.evidenceOf w.disk w.time o sc = (.ok found, disk) ∧
      survey = s.conclusion disk root o sc (manifestsOf w.disk root sc.rootFiles) found := by
  have hlocated := (keepsDisk_locateProject path).yields w
  cases hroot : ((Work.locateProject path).run w).1 with
  | error f =>
    rw [hroot] at hlocated
    have hfailed : ((s.conduct path given wishes).run w).1 = .error f :=
      hlocated.bind_error.result_eq
    simp [hfailed]
  | ok root =>
    rw [hroot] at hlocated
    rw [(conduct_yields_outcomeFrom hlocated s given wishes).result_eq]
    constructor
    · intro h
      obtain ⟨hcheck, o, sc, found, ho, hsc, hfound, rfl⟩ :=
        outcomeFrom_eq_ok_iff.mp (Prod.ext h rfl)
      exact ⟨root, o, sc, found, _, rfl, hcheck, ho, hsc, hfound, rfl⟩
    · rintro ⟨root', o, sc, found, disk, hsame, hcheck, ho, hsc, hfound, hsurvey⟩
      cases hsame
      exact congrArg Prod.fst
        (outcomeFrom_eq_ok_iff.mpr ⟨hcheck, o, sc, found, ho, hsc, hfound, hsurvey⟩)

/-- The manifests are among the files at the root. -/
theorem keys_manifestsOf_subset (disk : Entry) (root : Location) (rootFiles : List String) :
    Assoc.keys (manifestsOf disk root rootFiles) ⊆ rootFiles := by
  intro n hn
  rw [manifestsOf, Assoc.keys, List.map_map, List.mem_map] at hn
  obtain ⟨p, hp, rfl⟩ := hn
  obtain ⟨n, hn, hfound⟩ := List.mem_filterMap.mp hp
  obtain ⟨f, -, rfl⟩ := Option.map_eq_some_iff.mp hfound
  exact hn

/-- **The parts of every survey agree**, whatever the project, the options and the wishes, if the
rules are the built-in ones and the cache is off. -/
theorem conduct_isCoherent (htree : w.disk.IsTree) (hrules : s.rules = none)
    (h : ((s.conduct path given wishes).run w).1 = .ok survey) :
    ∃ root o sc, ((Work.locateProject path).run w).1 = .ok root ∧
      ((options root given wishes).run w).1 = .ok o ∧ ((s.scan root o).run w).1 = .ok sc ∧
      (o.cache = false → survey.IsCoherent o sc.files) := by
  obtain ⟨root, o, sc, found, disk, hroot, -, ho, hsc, hfound, rfl⟩ := conduct_eq_ok_iff.mp h
  refine ⟨root, o, sc, hroot, ho, (scan_yields s root o w).result_eq.trans hsc, ?_⟩
  intro hcache
  obtain ⟨st, -, hscan⟩ := scanOf_eq_ok hsc
  have hconsistent := Walk.isConsistent_of_scan hscan htree
  obtain ⟨read, hevidence, hread⟩ :=
    (s.gatheringOf w.disk sc.root o).exists_read_of_gather_none sc.files
  obtain ⟨rfl, rfl⟩ := eq_gather_of_evidenceOf_uncached hcache hfound
  rw [hevidence]
  unfold conclusion
  exact Survey.assemble_isCoherent hconsistent (rulesFor_of_builtin hrules o)
    (keys_manifestsOf_subset _ _ _) rfl hread

/-! ### A survey of a module and a link -/

/-- Nothing is overridden where nothing is wished. -/
theorem override?_default : Options.default.override? Overrides.none = some Options.default := by
  have hignore : Text.distinct (Options.default.ignoreDirectories ++ []) =
      Options.default.ignoreDirectories := by
    rw [Text.distinct_eq_eraseDups]
    decide
  unfold Options.override?
  rw [if_neg (by decide)]
  refine congrArg some ?_
  exact congrArg (fun names => { Options.default with ignoreDirectories := names }) hignore

/-- The parts of a survey of the two files agree. -/
theorem conduct_isCoherent_turnedDisk :
    FileReport.turnedDisk.IsTree ∧ usual.rules = none ∧ ∃ sc survey,
      ((usual.conduct "/p" (some .default) Overrides.none).run FileReport.turnedWorkspace).1 =
        .ok survey ∧
      ((usual.scan ["p"] .default).run FileReport.turnedWorkspace).1 = .ok sc ∧
      survey.IsCoherent .default sc.files := by
  obtain ⟨sc, found, hrun, -⟩ := FileReport.exists_gathered_turnedDisk
  obtain ⟨hsc, hfound⟩ := gathered_eq_ok_iff.mp hrun
  have hroot : ((Work.locateProject "/p").run FileReport.turnedWorkspace).1 = .ok ["p"] := by
    decide
  have ho : ((options ["p"] (some .default) Overrides.none).run FileReport.turnedWorkspace).1 =
      .ok .default := by
    unfold options
    dsimp only
    rw [pure_bind, override?_default]
    rfl
  have hsurvey := conduct_eq_ok_iff.mpr ⟨["p"], .default, sc, found, _, hroot,
    FileReport.isReadable_turnedDisk.check, ho, hsc, Prod.fst_eq_iff.mp hfound, rfl⟩
  obtain ⟨root, o, sc', hroot', ho', hsc', hcoherent⟩ :=
    conduct_isCoherent FileReport.isTree_turnedDisk rfl hsurvey
  cases hroot.symm.trans hroot'
  cases ho.symm.trans ho'
  exact ⟨FileReport.isTree_turnedDisk, rfl, sc', _, hsurvey, hsc', hcoherent rfl⟩

end Surveyor

end ProjectSurvey
