import ProjectSurvey.Proofs.CommandLine.Effects
import ProjectSurvey.Proofs.Disk.Unlinked
import ProjectSurvey.Proofs.Survey.Coherence

/-!
# The files that commands keep

Commands keep the evidence cache, the snapshot and the documents, all below the directory for output
(`CommandLine.IsOwnFile`); where that is, the configuration says (`CommandLine.IsOutput`).
**Surveying, keeping and documenting lets a disk without links grow by directories and own files
only** (`conduct_grows`, `keep_grows_own`, `runDocs_grows`), whatever path the configuration gives
and wherever the command fails. The configuration is no own file, so it says the same afterwards
(`configurationOf_eq_of_grows`).
-/

namespace ProjectSurvey.CommandLine

open Entry Work

/-! ### The directory for output -/

/-- Whether a location is the directory for output of a project: where the path in the configuration
leads, seen from the root. -/
def IsOutput (disk : Entry) (root out : Location) : Prop :=
  ∃ c, Surveyor.configurationOf disk root = .ok c ∧
    disk.resolve (Path.join root.text c.outputDirectory) = .ok out

/-- A project has one directory for output. -/
theorem IsOutput.eq {disk : Entry} {root out out' : Location} (h : IsOutput disk root out)
    (h' : IsOutput disk root out') : out = out' := by
  obtain ⟨c, hc, hout⟩ := h
  obtain ⟨c', hc', hout'⟩ := h'
  cases hc.symm.trans hc'
  exact Except.ok.inj (hout.symm.trans hout')

/-- What commands keep in a directory for output. -/
def ownNames : List (List String) :=
  ["cache", "evidence.json"] :: [Snapshot.fileName] :: Document.names.map fun n => ["docs", n]

/-- Whether commands keep a file at a location. -/
def IsOwnFile (disk : Entry) (root l : Location) : Prop :=
  ∃ out, IsOutput disk root out ∧ ∃ names ∈ ownNames, l = out ++ names

/-- Where the configuration of a project is. -/
def configurationPlace (root : Location) : Location := root ++ [Configuration.fileName]

/-- The place of the configuration is given by names. -/
theorem areNames_configurationPlace {root : Location} (hroot : Path.AreNames root) :
    Path.AreNames (configurationPlace root) :=
  Path.areNames_append.mpr ⟨hroot, by simpa using Surveyor.isName_configuration⟩

/-- The files of a project in its directory for output are given by names. -/
theorem areNames_of_mem_ownNames : ∀ names ∈ ownNames, Path.AreNames names := by decide

/-- None of the files in the directory for output has the name of the configuration. -/
theorem getLast?_of_mem_ownNames : ∀ names ∈ ownNames,
    names.getLast? ≠ none ∧ names.getLast? ≠ some Configuration.fileName := by decide

/-- The configuration is no own file. -/
theorem not_isOwnFile_configurationPlace (disk : Entry) (root : Location) :
    ¬ IsOwnFile disk root (configurationPlace root) := by
  rintro ⟨out, -, names, hnames, heq⟩
  obtain ⟨hne, hlast⟩ := getLast?_of_mem_ownNames names hnames
  have hgetLast := congrArg List.getLast? heq
  rw [configurationPlace, List.getLast?_concat, List.getLast?_append] at hgetLast
  cases hend : names.getLast? with
  | none => exact hne hend
  | some n =>
    rw [hend] at hgetLast hlast
    exact hlast hgetLast.symm

/-! ### What a configuration depends on -/

/-- Whether there is a directory at a location. -/
def HasDirectory (disk : Entry) (l : Location) : Prop :=
  ∃ es b g, disk.at? l = some (directory es b g)

/-- A directory stays one when files are added. -/
theorem HasDirectory.of_grows {disk disk' : Entry} {l top : Location} {files : Location → Prop}
    (h : HasDirectory disk l) (hgrows : Grows top files disk disk') : HasDirectory disk' l := by
  obtain ⟨es, b, g, hdir⟩ := h
  obtain ⟨es', hdir'⟩ := hgrows.exists_directory hdir
  exact ⟨es', b, g, hdir'⟩

section

variable {disk disk' : Entry} {root : Location}

/-- The configuration depends on its file and on the rights to the root only. -/
theorem configurationOf_eq (hdisk : disk.IsUnlinked) (hdisk' : disk'.IsUnlinked)
    (hroot : Path.AreNames root) {es es' : List (String × Entry)} {b b' : ListRight} {g : Bool}
    (hdir : disk.at? root = some (directory es b g))
    (hdir' : disk'.at? root = some (directory es' b' g))
    (hreached : (disk'.reach? root).isSome = (disk.reach? root).isSome)
    (hfile : ∀ octets m, disk'.at? (configurationPlace root) = some (file octets m) ↔
      disk.at? (configurationPlace root) = some (file octets m)) :
    Surveyor.configurationOf disk' root = Surveyor.configurationOf disk root := by
  have hplace := areNames_configurationPlace hroot
  by_cases hthere : ∃ octets m, disk.at? (configurationPlace root) = some (file octets m)
  · obtain ⟨octets, m, hat⟩ := hthere
    have hload := Surveyor.load_text hroot hdir (hdisk _)
    have hload' := Surveyor.load_text hroot hdir' (hdisk' _)
    have hsame : Configuration.load disk' root.text = Configuration.load disk root.text := by
      rw [hload, hload', hreached]
      cases checkPath root.text with
      | error f => rfl
      | ok u =>
        cases hreach : disk.reach? root with
        | none => rfl
        | some x =>
          cases hdir.symm.trans (at?_of_reach? hreach)
          obtain ⟨x', hreach'⟩ := Option.isSome_iff_exists.mp (hreached.trans (hreach ▸ rfl))
          cases hdir'.symm.trans (at?_of_reach? hreach')
          have hlookup := (at?_child hdir _).symm.trans hat
          have hlookup' := (at?_child hdir' _).symm.trans ((hfile octets m).mpr hat)
          rw [Surveyor.existsAt_configuration hroot hreach (hdisk _),
            Surveyor.existsAt_configuration hroot hreach' (hdisk' _), hlookup, hlookup']
          cases g with
          | false => cases checkPath (Location.text (root ++ [Configuration.fileName])) <;> rfl
          | true =>
            -- a way reaches the file on both disks, so it is read on both
            have hread := readOctets_text_of_file hplace
              ((reach?_concat hreach _).trans hlookup)
            have hread' := readOctets_text_of_file hplace
              ((reach?_concat hreach' _).trans hlookup')
            unfold configurationPlace at hread hread'
            unfold Configuration.ofFile readText
            rw [hread, hread']
    unfold Surveyor.configurationOf
    rw [hsame]
  · have hnone : ∀ octets m, disk.at? (configurationPlace root) ≠ some (file octets m) :=
      fun octets m hm => hthere ⟨octets, m, hm⟩
    rw [Surveyor.configurationOf_of_noFile hroot hdir (hdisk _) hnone,
      Surveyor.configurationOf_of_noFile hroot hdir' (hdisk' _)
        fun octets m hm => hnone octets m ((hfile octets m).mp hm), hreached]

/-- **What is written elsewhere leaves the configuration what it is.** -/
theorem configurationOf_eq_of_grows {files : Location → Prop} (hdisk : disk.IsUnlinked)
    (hroot : Path.AreNames root) (hdir : HasDirectory disk root)
    (h : Grows [] files disk disk') (hfiles : ¬ files (configurationPlace root)) :
    Surveyor.configurationOf disk' root = Surveyor.configurationOf disk root := by
  obtain ⟨es, b, g, hdir⟩ := hdir
  obtain ⟨es', hdir'⟩ := h.exists_directory hdir
  exact configurationOf_eq hdisk (h.isUnlinked hdisk) hroot hdir hdir' (h.isSome_reach? hdir)
    fun _ _ => h.at?_eq_some_iff hfiles rfl

end

/-! ### Writing own files -/

section

variable {disk disk' : Entry} {root : Location} {c : Configuration}

/-- A path to an own file leads to an own file. -/
theorem isOwnFile_of_resolve (hdisk : disk.IsUnlinked) (hdisk' : disk'.IsUnlinked)
    (hc : Surveyor.configurationOf disk root = .ok c) {path : String} {names : List String}
    (hnames : names ∈ ownNames)
    (hpath : Path.components path =
      Path.components (Path.join root.text c.outputDirectory) ++ names)
    (hzero : Path.holdsZero (Path.join root.text c.outputDirectory) = true →
      Path.holdsZero path = true) {l : Location} (hl : disk'.resolve path = .ok l) :
    IsOwnFile disk root l := by
  rw [hdisk'.resolve_eq] at hl
  split at hl
  · cases hl
  next hnone =>
  cases hl
  refine ⟨Location.along [] (Path.components (Path.join root.text c.outputDirectory)),
    ⟨c, hc, ?_⟩, names, hnames, ?_⟩
  · rw [hdisk.resolve_eq, if_neg (mt hzero hnone)]
  · rw [hpath, Location.along_append,
      Location.along_of_areNames _ (areNames_of_mem_ownNames names hnames)]

/-- **An own file is written where it is to be**, if its directory is there. -/
theorem grows_writeText_own (hdisk : disk.IsUnlinked) (hdisk' : disk'.IsUnlinked)
    (hc : Surveyor.configurationOf disk root = .ok c) {path n : String} {front : List String}
    (hnames : front ++ [n] ∈ ownNames)
    (hpath : Path.components path =
      Path.components (Path.join root.text c.outputDirectory) ++ (front ++ [n]))
    (hzero : Path.holdsZero (Path.join root.text c.outputDirectory) = true →
      Path.holdsZero path = true)
    (hway : disk'.HasWay (Path.components (Path.join root.text c.outputDirectory) ++ front))
    (time : Int) (text : List Char) :
    Grows [] (IsOwnFile disk root) disk' (disk'.writeText time path text).1 := by
  have hn := (Path.areNames_append.mp (areNames_of_mem_ownNames _ hnames)).2 n List.mem_cons_self
  refine hdisk'.grows_writeText (by rw [hpath, List.append_assoc]) hn hway ?_ time text
  intro l hl
  exact isOwnFile_of_resolve hdisk hdisk' hc hnames hpath hzero hl

/-- Making directories on the way adds no file. -/
theorem grows_makeDirectories_own (hdisk : disk.IsUnlinked)
    (h : Grows [] (IsOwnFile disk root) disk disk') (path : String) :
    Grows [] (IsOwnFile disk root) disk (disk'.makeDirectories path).1 :=
  h.trans (((h.isUnlinked hdisk).isMade_makeDirectories path).grows.mono fun _ hl => hl.elim)

/-! ### Surveying -/

/-- **Keeping a cache puts a file where its path leads and nowhere else**, and makes the directories
around it. -/
theorem grows_persist (hdisk : disk.IsUnlinked) {path n : String} {names : List String}
    (hpath : Path.components path = names ++ [n]) (hn : Path.IsName n) {files : Location → Prop}
    (hfiles : ∀ l, disk.resolve path = .ok l → files l) (cache : EvidenceCache) (time : Int) :
    Grows [] files disk (cache.persist disk time (some path)).2.1 := by
  have hfront : Path.components (Location.text (Path.components path).dropLast) = names := by
    have hcomponents := Path.areComponents_components path
    rw [hpath] at hcomponents ⊢
    rw [List.dropLast_concat]
    exact Path.AreComponents.components_text fun n hn =>
      hcomponents n (List.mem_append_left _ hn)
  have hmade := hdisk.isMade_makeDirectories (Location.text (Path.components path).dropLast)
  have hgrows : Grows [] files disk _ := hmade.grows.mono fun _ hl => hl.elim
  unfold EvidenceCache.persist
  cases cache.dirty with
  | false => exact .refl disk
  | true =>
    dsimp only
    cases hmake : disk.makeDirectories (Location.text (Path.components path).dropLast) with
    | mk disk₁ refused =>
      rw [hmake] at hmade hgrows
      cases refused with
      | some p => exact hgrows
      | none =>
        have hway := hmade.hasWay rfl
        rw [hfront] at hway
        have hdisk₁ := hgrows.isUnlinked hdisk
        have hown : ∀ l, disk₁.resolve path = .ok l → files l :=
          fun l hl => hfiles l (by rwa [hdisk.resolve_eq, ← hdisk₁.resolve_eq])
        have hwrite := hgrows.trans (hdisk₁.grows_writeText hpath hn hway hown time cache.text)
        generalize cache.toDatum.isShowable = showable
        cases showable with
        | false => exact hgrows
        | true =>
          dsimp only
          rw [if_pos rfl]
          cases hw : disk₁.writeText time path cache.text with
          | mk disk₂ refused =>
            rw [hw] at hwrite
            cases refused <;> exact hwrite

/-- The evidence cache has a name of its own. -/
theorem isName_evidence : Path.IsName "evidence.json" := by decide

/-- The file of the cache is the one for evidence in the directory for output. -/
theorem components_cachePath (root : Location) (o : Options) :
    Path.components (Surveyor.cachePath root o) =
      Path.components (Path.join root.text o.outputDirectory) ++ ["cache", "evidence.json"] := by
  rw [Surveyor.cachePath, Path.components_join _ (by decide)]
  rfl

/-- Writing the cache adds no other file than one of the project's own. -/
theorem persist_grows (hdisk : disk.IsUnlinked) (hc : Surveyor.configurationOf disk root = .ok c)
    {o : Options} (ho : o.outputDirectory = c.outputDirectory) (cache : EvidenceCache)
    (time : Int) :
    Grows [] (IsOwnFile disk root) disk
      (cache.persist disk time (some (Surveyor.cachePath root o))).2.1 := by
  have hpath := components_cachePath root o
  refine grows_persist hdisk (hpath.trans (List.append_assoc _ ["cache"] _).symm) isName_evidence
    ?_ cache time
  have hnames : ["cache", "evidence.json"] ∈ ownNames := List.mem_cons_self
  rw [ho] at hpath
  intro l hl
  refine isOwnFile_of_resolve hdisk hdisk hc hnames hpath ?_ hl
  rw [Surveyor.cachePath, ho]
  exact Path.holdsZero_join (by decide)

/-- The root of a scan is the one that was scanned. -/
theorem root_of_scan {t : Tables} {st : WalkSettings} {sc : Scan}
    (h : Walk.scan t st disk root = .ok sc) : sc.root = root := by
  unfold Walk.scan Walk.scanUnder at h
  cases hcheck : Walk.checkRoot disk root root.text with
  | error f =>
    rw [hcheck] at h
    cases h
  | ok u =>
    rw [hcheck] at h
    dsimp only [bind, Except.bind] at h
    cases hat : disk.at? root with
    | none =>
      rw [hat] at h
      cases h
    | some top =>
      rw [hat] at h
      dsimp only at h
      split at h
      · cases h
      · split at h
        · cases h
        · cases h
          rfl

/-- Gathering evidence changes the disk by keeping the cache only. -/
theorem evidenceOf_grows (s : Surveyor) (time : Int) {o : Options} (sc : Scan)
    {files : Location → Prop}
    (hkeeps : ∀ cache : EvidenceCache, Grows [] files disk
      (cache.persist disk time (some (Surveyor.cachePath sc.root o))).2.1) :
    Grows [] files disk (s.evidenceOf disk time o sc).2 := by
  unfold Surveyor.evidenceOf
  cases Surveyor.cacheOf disk sc.root o with
  | error f => exact .refl disk
  | ok cache =>
    dsimp only
    cases s.signatureOf? o with
    | none => exact .refl disk
    | some signature =>
      generalize (s.gatheringOf disk sc.root o).gather cache sc.files = gathered
      obtain ⟨found, cache'⟩ := gathered
      cases cache' with
      | none => exact .refl disk
      | some cache' =>
        rw [Surveyor.written_some]
        exact hkeeps cache'

/-- A survey adds no other files than the project's own. -/
theorem outcome_grows (hdisk : disk.IsUnlinked) (s : Surveyor) (time : Int) (root : Location)
    (wishes : Overrides) :
    Grows [] (IsOwnFile disk root) disk (s.outcome disk time root wishes).2 := by
  unfold Surveyor.outcome
  cases hprep : s.preparation disk root wishes with
  | error f => exact .refl disk
  | ok p =>
    obtain ⟨o, sc, ms⟩ := p
    obtain ⟨-, ho, ⟨st, -, hsc⟩, -⟩ := Surveyor.preparation_eq_ok_iff.mp hprep
    obtain ⟨c, hc, houtput⟩ := Surveyor.outputDirectory_of_optionsOf ho
    refine evidenceOf_grows s time sc fun cache => ?_
    rw [root_of_scan hsc]
    exact persist_grows hdisk hc houtput cache time

/-- **A survey lets the disk grow by own files only.** -/
theorem conduct_grows {w : Workspace} (hdisk : w.disk.IsUnlinked) {path : String}
    (hroot : ((locateProject path).run w).1 = .ok root) (s : Surveyor) (wishes : Overrides) :
    Grows [] (IsOwnFile w.disk root) w.disk ((s.conduct path none wishes).run w).2.disk := by
  have hlocated := (keepsDisk_locateProject path).yields w
  rw [hroot] at hlocated
  rw [(Surveyor.conduct_yields hlocated s wishes).disk_eq]
  exact outcome_grows hdisk s w.time root wishes

/-- Without a project nothing is surveyed. -/
theorem conduct_of_unlocated {w : Workspace} {path : String} {f : Failure}
    (hroot : ((locateProject path).run w).1 = .error f) (s : Surveyor) (wishes : Overrides) :
    (∃ f, ((s.conduct path none wishes).run w).1 = .error f) ∧
      ((s.conduct path none wishes).run w).2.disk = w.disk := by
  have hlocated := (keepsDisk_locateProject path).yields w
  rw [hroot] at hlocated
  exact ⟨⟨f, hlocated.bind_error.result_eq⟩, hlocated.bind_error.disk_eq⟩

/-- A path stands for the location that it is resolved to from where one is. -/
theorem locate_run (path : String) (w : Workspace) : (Work.locate path).run w =
    match w.disk.resolve (Path.join w.directory.text path) with
    | .ok l => (.ok l, w)
    | .error f => (.error (Failure.ofUnresolved f), w) := by
  unfold Work.locate absolute
  show (match w.disk.resolve (Path.join w.directory.text path) with
    | .ok l => pure l
    | .error f => throw (Failure.ofUnresolved f) : Work Location).run w = _
  cases w.disk.resolve (Path.join w.directory.text path) <;> rfl

/-- Without links, a path stands for a location that is given by names. -/
theorem areNames_of_locate {w : Workspace} (hdisk : w.disk.IsUnlinked) {path : String}
    {l : Location} (hl : ((Work.locate path).run w).1 = .ok l) : Path.AreNames l := by
  rw [locate_run] at hl
  cases hresolve : w.disk.resolve (Path.join w.directory.text path) with
  | error f =>
    rw [hresolve] at hl
    cases hl
  | ok l' =>
    rw [hresolve] at hl
    cases hl
    exact hdisk.areNames_of_resolve hresolve

/-- Without links, the root of a project is given by names. -/
theorem areNames_of_locateProject {w : Workspace} (hdisk : w.disk.IsUnlinked) {path : String}
    (hroot : ((locateProject path).run w).1 = .ok root) : Path.AreNames root := by
  unfold locateProject at hroot
  rw [run_bind] at hroot
  have hkept := (keepsDisk_fromHome path w).disk
  rcases hrun : (fromHome path).run w with ⟨r, w'⟩
  rw [hrun] at hroot hkept
  cases r with
  | error f => cases hroot
  | ok path' =>
    dsimp only at hroot hkept
    exact areNames_of_locate (hkept ▸ hdisk) hroot

/-- A root that passes the check is a directory. -/
theorem hasDirectory_of_checkRoot (hdisk : disk.IsUnlinked) (hroot : Path.AreNames root)
    {shown : String} (hcheck : Walk.checkRoot disk root shown = .ok ()) :
    HasDirectory disk root := by
  unfold Walk.checkRoot at hcheck
  cases hseek : disk.seek root.text with
  | error f =>
    rw [hseek] at hcheck
    cases hcheck
  | ok found =>
    rw [hseek] at hcheck
    cases found with
    | none => cases hcheck
    | some x =>
      cases x with
      | file _ _ => cases hcheck
      | link _ _ => cases hcheck
      | directory es b g => exact ⟨es, b, g, hdisk.at?_of_seek_text hroot hseek⟩

/-- A project that was surveyed is a directory, and the survey says where. -/
theorem of_conduct {w : Workspace} (hdisk : w.disk.IsUnlinked) {path : String}
    (hroot : ((locateProject path).run w).1 = .ok root) {s : Surveyor} {wishes : Overrides}
    {survey : Survey} (h : ((s.conduct path none wishes).run w).1 = .ok survey) :
    rootOf survey = root ∧ HasDirectory w.disk root := by
  obtain ⟨root', o, sc, found, disk', hroot', hcheck, -, hsc, -, rfl⟩ :=
    Surveyor.conduct_eq_ok_iff.mp h
  cases hroot.symm.trans hroot'
  have hnames := areNames_of_locateProject hdisk hroot
  obtain ⟨st, -, hscan⟩ := Surveyor.scanOf_eq_ok hsc
  refine ⟨?_, hasDirectory_of_checkRoot hdisk hnames hcheck⟩
  show Path.components sc.root.text = root
  rw [root_of_scan hscan, Path.components_text hnames]

/-- Where no directory is, nothing is surveyed. -/
theorem conduct_of_not_directory {w : Workspace} (hdisk : w.disk.IsUnlinked) {path : String}
    (hroot : ((locateProject path).run w).1 = .ok root) (hdir : ¬ HasDirectory w.disk root)
    (s : Surveyor) (wishes : Overrides) :
    (∃ f, ((s.conduct path none wishes).run w).1 = .error f) ∧
      ((s.conduct path none wishes).run w).2.disk = w.disk := by
  have hnames := areNames_of_locateProject hdisk hroot
  have hlocated := (keepsDisk_locateProject path).yields w
  rw [hroot] at hlocated
  have hyields := Surveyor.conduct_yields hlocated s wishes
  cases hcheck : Walk.checkRoot w.disk root root.text with
  | ok u => exact absurd (hasDirectory_of_checkRoot hdisk hnames hcheck) hdir
  | error f =>
    have hprep : s.preparation w.disk root wishes = .error f := by
      unfold Surveyor.preparation
      rw [hcheck]
    rw [Surveyor.outcome_of_error hprep] at hyields
    exact ⟨⟨f, hyields.result_eq⟩, hyields.disk_eq⟩

/-! ### Keeping and documenting -/

/-- The directory for output that is found is the one of the configuration. -/
theorem of_outputDirectory {w w' : Workspace} {directory : String}
    (hrun : (outputDirectory root).run w = (.ok directory, w')) :
    ∃ c, Surveyor.configurationOf w.disk root = .ok c ∧
      directory = Path.join root.text c.outputDirectory := by
  have hresult := (outputDirectory_yields root w).result_eq
  rw [hrun] at hresult
  cases ho : Surveyor.optionsOf w.disk root Overrides.none with
  | error f =>
    rw [ho] at hresult
    cases hresult
  | ok o =>
    rw [ho] at hresult
    obtain ⟨c, hc, houtput⟩ := Surveyor.outputDirectory_of_optionsOf ho
    cases hresult
    exact ⟨c, hc, congrArg (Path.join root.text) houtput⟩

/-- Where the configuration can be read, the directory for output is found, and nothing changes. -/
theorem exists_outputDirectory_run {w : Workspace}
    (hc : Surveyor.configurationOf w.disk root = .ok c) :
    ∃ w', (outputDirectory root).run w = (.ok (Path.join root.text c.outputDirectory), w') ∧
      w.IsWith w.disk w' := by
  obtain ⟨o, ho⟩ : ∃ o, (Options.ofConfiguration c).1.override? Overrides.none = some o :=
    Surveyor.exists_override?_eq_some rfl _
  have hoptions : Surveyor.optionsOf w.disk root Overrides.none = .ok o := by
    unfold Surveyor.optionsOf
    rw [hc]
    dsimp only [bind, Except.bind]
    rw [ho]
  obtain ⟨w', hrun, hw'⟩ := outputDirectory_yields root w
  rw [hoptions] at hrun
  have houtput : o.outputDirectory = c.outputDirectory := (Surveyor.override?_eq_some ho).1
  exact ⟨w', by rw [hrun, ← houtput]; rfl, hw'⟩

/-- Finding the directory for output keeps the disk. -/
theorem keepsDisk_outputDirectory (root : Location) : KeepsDisk (outputDirectory root) := by
  intro w
  obtain ⟨w', hrun, hw'⟩ := outputDirectory_yields root w
  rw [hrun]
  exact hw'

/-- A directory that was made can be entered. -/
theorem hasWay_of_change {w w' : Workspace} (hdisk : w.disk.IsUnlinked) {path : String} {u : Unit}
    (hrun : (Work.change fun disk => disk.makeDirectories path).run w = (.ok u, w')) :
    w'.disk.HasWay (Path.components path) := by
  have hmade := hdisk.isMade_makeDirectories path
  rw [change_run] at hrun
  cases hrefused : (w.disk.makeDirectories path).2 with
  | none =>
    rw [hrefused] at hrun
    cases hrun
    exact hmade.hasWay hrefused
  | some p =>
    rw [hrefused] at hrun
    cases hrun

/-- **Keeping a snapshot lets the disk grow by own files only.** -/
theorem keep_grows_own {w : Workspace} (hdisk : disk.IsUnlinked) (hroot : Path.AreNames root)
    (hdir : HasDirectory disk root) (h : Grows [] (IsOwnFile disk root) disk w.disk)
    (s : Snapshot) : Grows [] (IsOwnFile disk root) disk ((keep root s).run w).2.disk := by
  unfold keep
  refine disk_bind (P := Grows _ _ disk) ((keepsDisk_outputDirectory root).keeps h) ?_
  intro directory w₁ hrun₁ h₁
  obtain ⟨c, hc, rfl⟩ := of_outputDirectory hrun₁
  rw [configurationOf_eq_of_grows hdisk hroot hdir h
    (not_isOwnFile_configurationPlace disk root)] at hc
  unfold Snapshot.save
  rw [run_bind, run_get]
  dsimp only
  apply disk_bind (P := Grows [] (IsOwnFile disk root) disk)
  · rw [disk_change]
    exact grows_makeDirectories_own hdisk h₁ _
  intro u w₂ hrun₂ h₂
  have hway := hasWay_of_change (h₁.isUnlinked hdisk) hrun₂
  refine disk_bind (P := Grows _ _ disk) ((keepsDisk_ofExcept _).keeps h₂) ?_
  intro text w₃ hrun₃ h₃
  have hkept := (keepsDisk_ofExcept s.text? w₂).disk
  rw [hrun₃] at hkept
  rw [← hkept] at hway
  rw [disk_change]
  have hmem : [] ++ [Snapshot.fileName] ∈ ownNames := by decide
  refine h₃.trans (grows_writeText_own hdisk (h₃.isUnlinked hdisk) hc hmem
    (Path.components_join_name _ isName_snapshot)
    (Path.holdsZero_join isName_snapshot.isAbsolute_eq_false) ?_ _ _)
  rwa [List.append_nil]

/-! #### Documents -/

/-- The names of the documents are ones that a directory can hold. -/
theorem isName_of_mem_names : ∀ n ∈ Document.names, Path.IsName n := by decide

/-- Pairing each name with something leaves the names as they are. -/
theorem map_fst_mapM {ε : Type} {f : String → Except ε String} {names : List String}
    {pairs : List (String × String)}
    (h : (names.mapM fun n => do pure (n, ← f n)) = .ok pairs) : pairs.map Prod.fst = names := by
  induction names generalizing pairs with
  | nil =>
    cases h
    rfl
  | cons n names ih =>
    rw [List.mapM_cons] at h
    cases hn : f n with
    | error e =>
      rw [hn] at h
      cases h
    | ok t =>
      rw [hn] at h
      cases hrest : names.mapM fun n => do pure (n, ← f n) with
      | error e =>
        rw [hrest] at h
        cases h
      | ok rest =>
        rw [hrest] at h
        cases h
        rw [List.map_cons, ih hrest]

/-- No other documents are made than those asked for. -/
theorem keys_makeAll_subset {templates : Assoc String (List Char)} {names : List String}
    {s : Snapshot} {documents : Assoc String String}
    (h : Document.makeAll templates names s = .ok documents) : Assoc.keys documents ⊆ names := by
  unfold Document.makeAll at h
  cases hpairs : names.mapM fun name => do pure (name, ← Document.make templates name s) with
  | error e =>
    rw [hpairs] at h
    cases h
  | ok pairs =>
    rw [hpairs] at h
    cases h
    intro n hn
    rw [Assoc.ofPairs, Assoc.mem_keys_update] at hn
    rcases hn with hn | hn
    · cases hn
    · exact map_fst_mapM hpairs ▸ hn

/-- What each round of a loop keeps holds of the disk that the loop leaves. -/
theorem disk_forIn {α : Type} {P : Entry → Prop} {l : List α}
    {f : α → PUnit → Work (ForInStep PUnit)}
    (hf : ∀ a ∈ l, ∀ u w, P w.disk → P ((f a u).run w).2.disk) (u : PUnit) {w : Workspace}
    (hw : P w.disk) : P ((forIn l u f).run w).2.disk := by
  induction l generalizing u w with
  | nil => exact hw
  | cons a l ih =>
    rw [List.forIn_cons]
    refine disk_bind (hf a List.mem_cons_self u w hw) ?_
    intro r w' _ hw'
    cases r with
    | done u => exact hw'
    | yield u => exact ih (fun b hb => hf b (List.mem_cons_of_mem a hb)) u hw'

/-- Printing a path changes nothing, and it fails only if the command was called from where no
directory is any more. -/
theorem printedPath_run (path : String) (w : Workspace) :
    ∃ r, (printedPath path).run w = (r, w) ∧ ((∃ text, r = .ok text) ∨
      ¬ HasDirectory w.disk w.directory ∧ r = .error (.notFound Failure.lostDirectoryText)) := by
  unfold printedPath
  rw [run_bind, run_get]
  dsimp only
  cases hthere : w.disk.at? w.directory with
  | none =>
    refine ⟨_, rfl, .inr ⟨?_, rfl⟩⟩
    rintro ⟨es, b, g, hdir⟩
    cases hthere.symm.trans hdir
  | some x =>
    cases Path.isAbsolute path with
    | false => exact ⟨_, rfl, .inl ⟨_, rfl⟩⟩
    | true =>
      rcases Location.below? w.directory (Path.components path) with _ | _ | _ <;>
        exact ⟨_, rfl, .inl ⟨_, rfl⟩⟩

/-- Printing a path leaves the disk as it is. -/
theorem keepsDisk_printedPath (path : String) : KeepsDisk (printedPath path) := by
  intro w
  obtain ⟨r, hrun, -⟩ := printedPath_run path w
  rw [hrun]
  exact ⟨rfl, rfl, rfl, rfl⟩

/-- Where documents are written if no other directory is given for them. -/
def documentDirectory (root : Location) (c : Configuration) : String :=
  Path.join (Path.join root.text c.outputDirectory) "docs"

/-- An absolute path stands for itself. -/
theorem absolute_run {path : String} (h : Path.isAbsolute path = true) (w : Workspace) :
    (absolute path).run w = (.ok path, w) := by
  show ((.ok (Path.join w.directory.text path), w) : Except Failure String × Workspace) = _
  rw [Path.join_of_isAbsolute _ h]

/-- A document is an own file, if the directory of documents is there. -/
theorem grows_writeText_document (hdisk : disk.IsUnlinked) (hdisk' : disk'.IsUnlinked)
    (hc : Surveyor.configurationOf disk root = .ok c) {n : String} (hn : n ∈ Document.names)
    (hway : disk'.HasWay (Path.components (documentDirectory root c))) (time : Int)
    (text : List Char) :
    Grows [] (IsOwnFile disk root) disk'
      (disk'.writeText time (Path.join (documentDirectory root c) n) text).1 := by
  have hdocs : Path.IsName "docs" := by decide
  have hname := isName_of_mem_names n hn
  have hown : ["docs"] ++ [n] ∈ ownNames :=
    List.mem_cons_of_mem _ (List.mem_cons_of_mem _ (List.mem_map_of_mem hn))
  have hdirectory : Path.components (documentDirectory root c) =
      Path.components (Path.join root.text c.outputDirectory) ++ ["docs"] :=
    Path.components_join_name _ hdocs
  refine grows_writeText_own hdisk hdisk' hc hown ?_ ?_ (hdirectory ▸ hway) time text
  · rw [Path.components_join_name _ hname, hdirectory, List.append_assoc]
  · intro hzero
    exact Path.holdsZero_join hname.isAbsolute_eq_false
      (Path.holdsZero_join hdocs.isAbsolute_eq_false hzero)

/-- **Documents are own files** where no other directory is given for them. -/
theorem writeDocuments_grows {w : Workspace} (hdisk : disk.IsUnlinked)
    (hc : Surveyor.configurationOf disk root = .ok c)
    (h : Grows [] (IsOwnFile disk root) disk w.disk) (s : Snapshot) :
    Grows [] (IsOwnFile disk root) disk
      ((writeDocuments s (documentDirectory root c)).run w).2.disk := by
  have habsolute : Path.isAbsolute (documentDirectory root c) = true :=
    Path.isAbsolute_join (Path.isAbsolute_join (Path.isAbsolute_text root) _) _
  unfold writeDocuments
  rw [run_bind, absolute_run habsolute]
  dsimp only
  rw [run_bind, run_get]
  dsimp only
  apply disk_bind (P := Grows [] (IsOwnFile disk root) disk)
  · rw [disk_change]
    exact grows_makeDirectories_own hdisk h _
  intro u w₁ hrun₁ h₁
  have hway := hasWay_of_change (h.isUnlinked hdisk) hrun₁
  cases hmake : Document.makeAll [] Document.names s with
  | error f => exact h₁
  | ok documents =>
    dsimp only
    apply disk_bind (P := Grows [] (IsOwnFile disk root) disk)
    · refine (disk_forIn (P := fun disk' => Grows [] (IsOwnFile disk root) disk disk' ∧
        disk'.HasWay (Path.components (documentDirectory root c))) ?_ PUnit.unit ⟨h₁, hway⟩).1
      rintro ⟨n, text⟩ hn u w₂ ⟨h₂, hway₂⟩
      have hwrite := grows_writeText_document hdisk (h₂.isUnlinked hdisk) hc
        (keys_makeAll_subset hmake (List.mem_map_of_mem hn)) hway₂ w.time text.toList
      refine disk_bind (P := fun disk' => Grows [] (IsOwnFile disk root) disk disk' ∧
        disk'.HasWay (Path.components (documentDirectory root c))) ?_ fun _ _ _ hdone => hdone
      rw [disk_change]
      exact ⟨h₂.trans hwrite, hwrite.hasWay hway₂⟩
    · intro u' w₂ _ h₂
      -- what is said and printed afterwards leaves the disk as it is
      refine KeepsDisk.keeps (P := Grows _ _ disk) ?_ h₂
      refine KeepsDisk.bind (fun _ => ⟨rfl, rfl, rfl, rfl⟩) fun _ => ?_
      refine KeepsDisk.bind (keepsDisk_forIn ?_ _) fun _ => keepsDisk_pure _
      intro p u
      refine (keepsDisk_printedPath _).bind fun _ => ?_
      exact (keepsDisk_print _).bind fun _ => keepsDisk_pure _

end

/-! ### Commands -/

/-- Whether a command names a directory for its documents. -/
def Command.namesOutput : Command → Bool
  | docs _ _ (some place) => place ≠ ""
  | _ => false

/-- `status` keeps the disk. -/
theorem keepsDisk_runStatus (path : String) : KeepsDisk (runStatus path) := by
  unfold runStatus
  refine (keepsDisk_locateProject path).bind fun root => ?_
  refine (keepsDisk_outputDirectory root).bind fun directory => ?_
  refine keepsDisk_get.bind fun w => ?_
  refine (keepsDisk_ofExcept _).bind fun found => ?_
  cases found with
  | none => exact keepsDisk_print _
  | some s => exact (keepsDisk_print _).bind fun _ => keepsDisk_printGist s

/-- Printing the report on a file keeps the disk. -/
theorem keepsDisk_printFileReport (r : FileReport) : KeepsDisk (printFileReport r) := by
  unfold printFileReport
  refine (keepsDisk_print _).bind fun _ => ?_
  refine (keepsDisk_print _).bind fun _ => ?_
  refine (keepsDisk_print _).bind fun _ => ?_
  refine (keepsDisk_print _).bind fun _ => ?_
  exact (keepsDisk_printEach _ _).bind fun _ => keepsDisk_pure ()

/-- `file` keeps the disk. -/
theorem keepsDisk_runFile (target root : String) (json : Bool) :
    KeepsDisk (runFile target root json) := by
  unfold runFile
  refine (keepsDisk_locateProject root).bind fun root => ?_
  refine keepsDisk_get.bind fun w => ?_
  refine (keepsDisk_ofExcept _).bind fun report => ?_
  exact keepsDisk_ite (keepsDisk_print _) (keepsDisk_printFileReport report)

section

variable {w : Workspace} {path : String} {root : Location}

/-- What follows a survey and adds own files only. -/
theorem grows_after_conduct (hdisk : w.disk.IsUnlinked)
    (hroot : ((locateProject path).run w).1 = .ok root) {s : Surveyor} {wishes : Overrides}
    {f : Survey → Work Unit}
    (hf : ∀ survey w', rootOf survey = root → HasDirectory w.disk root →
      Grows [] (IsOwnFile w.disk root) w.disk w'.disk →
      Grows [] (IsOwnFile w.disk root) w.disk ((f survey).run w').2.disk) :
    Grows [] (IsOwnFile w.disk root) w.disk ((s.conduct path none wishes >>= f).run w).2.disk := by
  refine disk_bind (P := Grows _ _ w.disk) (conduct_grows hdisk hroot s wishes) ?_
  intro survey w₁ hrun h₁
  have hok : ((s.conduct path none wishes).run w).1 = .ok survey := by rw [hrun]
  obtain ⟨hrootOf, hdir⟩ := of_conduct hdisk hroot hok
  exact hf survey w₁ hrootOf hdir h₁

/-- `analyze` adds no other files than the project's own. -/
theorem runAnalyze_grows (hdisk : w.disk.IsUnlinked)
    (hroot : ((locateProject path).run w).1 = .ok root) (s : Surveyor) (wishes : Overrides)
    (json keeps : Bool) :
    Grows [] (IsOwnFile w.disk root) w.disk
      ((runAnalyze s path wishes json keeps).run w).2.disk := by
  unfold runAnalyze
  refine grows_after_conduct hdisk hroot ?_
  intro survey w₁ hrootOf hdir h₁
  have hprint : KeepsDisk (if json then do
      printJson (← Work.ofExcept (Snapshot.ofSurvey survey).layOut)
    else printGist (Snapshot.ofSurvey survey)) :=
    keepsDisk_ite ((keepsDisk_ofExcept _).bind fun _ => keepsDisk_print _) (keepsDisk_printGist _)
  dsimp only
  cases keeps with
  | false =>
    rw [if_neg Bool.false_ne_true]
    exact hprint.keeps h₁
  | true =>
    rw [if_pos rfl, hrootOf]
    refine disk_bind (P := Grows _ _ w.disk)
      (keep_grows_own hdisk (areNames_of_locateProject hdisk hroot) hdir h₁ _) ?_
    intro u w₂ _ h₂
    exact hprint.keeps h₂

/-- `docs` without a place for the documents adds no other files than the project's own. -/
theorem runDocs_grows (hdisk : w.disk.IsUnlinked)
    (hroot : ((locateProject path).run w).1 = .ok root) (s : Surveyor) (wishes : Overrides)
    {output : Option String} (houtput : ∀ place, output = some place → place = "") :
    Grows [] (IsOwnFile w.disk root) w.disk ((runDocs s path wishes output).run w).2.disk := by
  unfold runDocs
  refine grows_after_conduct hdisk hroot ?_
  intro survey w₁ hrootOf hdir h₁
  -- the documents go below the directory for output, which is the same as before the survey
  have hown : Grows [] (IsOwnFile w.disk root) w.disk ((do
      let place ← outputDirectory root
      let place ← pure (Path.join place "docs")
      writeDocuments (Snapshot.ofSurvey survey) place).run w₁).2.disk := by
    refine disk_bind (P := Grows _ _ w.disk) ((keepsDisk_outputDirectory root).keeps h₁) ?_
    intro place w₂ hrun₂ h₂
    obtain ⟨c, hc, rfl⟩ := of_outputDirectory hrun₂
    rw [configurationOf_eq_of_grows hdisk (areNames_of_locateProject hdisk hroot) hdir h₁
      (not_isOwnFile_configurationPlace w.disk root)] at hc
    rw [pure_bind, ← documentDirectory]
    exact writeDocuments_grows hdisk hc h₂ _
  rw [hrootOf]
  cases output with
  | none => exact hown
  | some place =>
    cases houtput place rfl
    exact hown

end

end ProjectSurvey.CommandLine
