import ProjectSurvey.Proofs.Evidence.Cache
import ProjectSurvey.Proofs.Survey.Outcome
import ProjectSurvey.Proofs.Walk.Frame
import ProjectSurvey.Snapshot.Load

/-!
# What a survey does not see

What a survey reads of a project lies beside the directory for output: the configuration, the ignore
file, the manifests and the files that count. **On disks that hold the same project a survey without
the cache comes to the same** (`Surveyor.outcome_eq_of_sameProject`). That the writing of the cache
keeps a project what it is follows from the places at which no link may be (`Entry.IsProject`).
-/

namespace ProjectSurvey

/-! ### Projects -/

namespace Entry

/-- Whether there is a project at a location, and no link where a run writes. -/
structure IsProject (root : Location) (out : String) (disk : Entry) : Prop where
  /-- The disk is a tree. -/
  isTree : disk.IsTree
  /-- There is a directory at the root. -/
  top : ∃ es b g, disk.at? root = some (directory es b g)
  /-- The directory for output is no link, -/
  noLinkOutput : disk.NoLinkAt (root ++ [out])
  /-- nor the one for the cache, -/
  noLinkCache : disk.NoLinkAt (root ++ [out, "cache"])
  /-- nor the file of the cache, -/
  noLinkEvidence : disk.NoLinkAt (EvidenceCache.place root out)
  /-- nor that of the snapshot. -/
  noLinkSnapshot : disk.NoLinkAt (root ++ [out, Snapshot.fileName])

namespace IsProject

variable {root : Location} {out : String} {disk disk' : Entry}

/-- The root of a project is a location of plain names. -/
theorem areNames_root (h : IsProject root out disk) : Path.AreNames root := by
  obtain ⟨es, b, g, hroot⟩ := h.top
  exact (h.isTree.areNames_of_at? hroot).1

/-- There is no link on the way to the root, -/
theorem isStraight_root (h : IsProject root out disk) : disk.IsStraight root := by
  obtain ⟨es, b, g, hroot⟩ := h.top
  exact isStraight_of_at? hroot (by simp)

/-- A project is still one when something was written below the directory for output. -/
theorem of_grows (h : IsProject root out disk) {files : Location → Prop}
    (hgrows : Grows (root ++ [out]) files disk disk') : IsProject root out disk' := by
  obtain ⟨es, b, g, hroot⟩ := h.top
  obtain ⟨es', hroot', -⟩ := hgrows.sameBeside hroot
  exact ⟨hgrows.isTree h.isTree, ⟨es', b, g, hroot'⟩, hgrows.noLinkAt h.noLinkOutput,
    hgrows.noLinkAt h.noLinkCache, hgrows.noLinkAt h.noLinkEvidence,
    hgrows.noLinkAt h.noLinkSnapshot⟩

end IsProject

end Entry

/-! ### Fresh evidence -/

/-- The wishes, but for a survey without the cache. -/
def Overrides.uncached (w : Overrides) : Overrides := { w with cache := some false }

/-- Without a cache each record is looked at afresh. -/
theorem Gathering.visitAll_none (g : Gathering) (records : List FileRecord) :
    g.visitAll none records = (records.map fun r => (r.path, g.fresh r), none) := by
  induction records with
  | nil => rfl
  | cons r records ih =>
    rw [visitAll, visit]
    dsimp only
    rw [ih]
    rfl

/-- Without a cache all evidence is fresh. -/
theorem Gathering.gather_none (g : Gathering) (records : List FileRecord) :
    g.gather none records =
      ((records.filter fun r => g.tables.isCountable r.language).map fun r => (r.path, g.fresh r),
        none) := by
  rw [gather, visitAll_none]
  rfl

namespace Surveyor

open Entry

variable {root : Location} {out : String} {disk disk' : Entry}

/-! ### The configuration -/

/-- The configuration file has a plain name. -/
theorem isName_configuration : Path.IsName Configuration.fileName := by decide

/-- A name joined to the root is the path of the location below it. -/
theorem join_text_name (hroot : Path.AreNames root) {n : String} (hn : Path.IsName n) :
    Path.join root.text n = Location.text (root ++ [n]) := by
  rw [← Path.join_text_ofSegments hroot (by simp) (by simpa using hn), Path.ofSegments_singleton]

/-- The configuration of a project is read at its root, if the system takes the path and does not
deny it. -/
theorem load_text {es : List (String × Entry)} {b : ListRight} {g : Bool}
    (hnames : Path.AreNames root) (hroot : disk.at? root = some (directory es b g))
    (hlink : disk.NoLinkAt (root ++ [Configuration.fileName])) :
    Configuration.load disk root.text =
      match checkPath root.text with
      | .error f => .error (.refused f root.text)
      | .ok () =>
        if (disk.reach? root).isSome then
          match disk.existsAt (Location.text (root ++ [Configuration.fileName])) with
          | .error f => .error (.refused f (Location.text (root ++ [Configuration.fileName])))
          | .ok false => .ok Configuration.empty
          | .ok true =>
            match Configuration.ofFile disk (root ++ [Configuration.fileName]) with
            | .error f => .error (.configuration Configuration.fileName f)
            | .ok c => .ok c
        else .error (.refused .denied root.text) := by
  have hstraight : disk.IsStraight root := isStraight_of_at? hroot (by simp)
  unfold Configuration.load Configuration.filePath directoryAt seek
  cases hcheck : checkPath root.text with
  | error f =>
    rw [checkPath_text hnames] at hcheck
    split at hcheck
    · next hlong =>
      cases hcheck
      have hcheck : checkPath root.text = .error .longName := by
        rw [checkPath_text hnames, if_pos hlong]
      rw [locate_of_error disk hcheck]
      rfl
    · cases hcheck
  | ok u =>
    have hconfiguration : Path.AreNames (root ++ [Configuration.fileName]) :=
      Path.areNames_append.mpr ⟨hnames, by simpa using isName_configuration⟩
    rw [locate_text_of_ok disk hnames hcheck]
    rcases follow_of_at? hnames hroot hstraight.self true linkLimit with
      ⟨hreach, hfollow⟩ | ⟨hnone, hfollow⟩
    · rw [hfollow, hreach]
      dsimp only [Except.map, bind, Except.bind, Option.map_some, Option.getD_some, isDirectory]
      rw [if_pos rfl, join_text_name hnames isName_configuration]
      dsimp only
      rw [resolve_text hconfiguration (hstraight.concat hlink)]
      dsimp only
      have hname : Location.name (root ++ [Configuration.fileName]) = Configuration.fileName := by
        unfold Location.name
        rw [List.getLastD_concat]
      rw [hname]
      rfl
    · rw [hfollow, hnone]
      rfl

/-- Whether there is something where the configuration is to be. -/
theorem existsAt_configuration {es : List (String × Entry)} {b : ListRight} {g : Bool}
    (hnames : Path.AreNames root) (hroot : disk.reach? root = some (directory es b g))
    (hlink : disk.NoLinkAt (root ++ [Configuration.fileName])) :
    disk.existsAt (Location.text (root ++ [Configuration.fileName])) =
      (checkPath (Location.text (root ++ [Configuration.fileName]))).bind fun _ =>
        if g then .ok (es.lookup Configuration.fileName).isSome else .error .denied :=
  existsAt_child (Path.areNames_append.mpr ⟨hnames, by simpa using isName_configuration⟩)
    (by decide) hroot hlink

/-- Where there is no file for it, a configuration says nothing, if the system does not refuse. -/
theorem configurationOf_of_noFile {es : List (String × Entry)} {b : ListRight} {g : Bool}
    (hnames : Path.AreNames root) (hroot : disk.at? root = some (directory es b g))
    (hlink : disk.NoLinkAt (root ++ [Configuration.fileName]))
    (hfile : ∀ octets m, disk.at? (root ++ [Configuration.fileName]) ≠ some (file octets m)) :
    configurationOf disk root =
      match checkPath root.text with
      | .error f => .error (.refused f root.text)
      | .ok () =>
        if (disk.reach? root).isSome then
          match checkPath (Location.text (root ++ [Configuration.fileName])) with
          | .error f => .error (.refused f (Location.text (root ++ [Configuration.fileName])))
          | .ok () =>
            if g then .ok Configuration.empty
            else .error (.refused .denied (Location.text (root ++ [Configuration.fileName])))
        else .error (.refused .denied root.text) := by
  have hconfiguration : Path.AreNames (root ++ [Configuration.fileName]) :=
    Path.areNames_append.mpr ⟨hnames, by simpa using isName_configuration⟩
  obtain ⟨f, hread⟩ := readOctets_text_of_none hconfiguration
    ((isStraight_of_at? hroot (by simp)).concat hlink) hfile
  have hofFile : Configuration.ofFile disk (root ++ [Configuration.fileName]) =
      .error (.refused f (Location.text (root ++ [Configuration.fileName]))) := by
    unfold Configuration.ofFile readText
    rw [hread]
  unfold configurationOf
  rw [load_text hnames hroot hlink, hofFile]
  cases checkPath root.text with
  | error f => rfl
  | ok u =>
    cases hreach : disk.reach? root with
    | none => rfl
    | some x =>
      cases hroot.symm.trans (at?_of_reach? hreach)
      rw [existsAt_configuration hnames hreach hlink, Option.isSome_some, if_pos rfl, if_pos rfl]
      cases checkPath (Location.text (root ++ [Configuration.fileName])) with
      | error f => rfl
      | ok u =>
        cases g with
        | false => rfl
        | true =>
          -- what is there, if anything, is no file, and so it cannot be read
          cases (es.lookup Configuration.fileName).isSome <;> rfl

/-- Where there is no file for it, a configuration that is had says nothing. -/
theorem eq_empty_of_configurationOf {es : List (String × Entry)} {b : ListRight} {g : Bool}
    (hnames : Path.AreNames root) (hroot : disk.at? root = some (directory es b g))
    (hlink : disk.NoLinkAt (root ++ [Configuration.fileName]))
    (hfile : ∀ octets m, disk.at? (root ++ [Configuration.fileName]) ≠ some (file octets m))
    {c : Configuration} (hc : configurationOf disk root = .ok c) : c = Configuration.empty := by
  rw [configurationOf_of_noFile hnames hroot hlink hfile] at hc
  repeat' split at hc
  all_goals cases hc
  rfl

/-- A configuration that does not say nothing is in a file. -/
theorem exists_file_of_configurationOf (h : IsProject root out disk)
    (hlink : disk.NoLinkAt (root ++ [Configuration.fileName])) {c : Configuration}
    (hc : configurationOf disk root = .ok c) (hne : c ≠ Configuration.empty) :
    ∃ octets m, disk.at? (root ++ [Configuration.fileName]) = some (file octets m) := by
  obtain ⟨es, b, g, hroot⟩ := h.top
  by_contra hfile
  exact hne (eq_empty_of_configurationOf h.areNames_root hroot hlink
    (fun octets m hm => hfile ⟨octets, m, hm⟩) hc)

/-- The configuration is the same on disks that hold the same project. -/
theorem load_eq_of_sameProject (h : SameProject root out disk disk')
    (hlink : disk.NoLinkAt (root ++ [Configuration.fileName]))
    (hfile : out = Configuration.fileName →
      ∃ f, disk.IsFileAt root out [Configuration.fileName] f) :
    Configuration.load disk' root.text = Configuration.load disk root.text := by
  obtain ⟨es, es', b, g, hroot, hroot', hsame⟩ := h.top
  have hnames : Path.AreNames (root ++ [Configuration.fileName]) :=
    Path.areNames_append.mpr ⟨h.areNames_root, by simpa using isName_configuration⟩
  have hlookup : es'.lookup Configuration.fileName = es.lookup Configuration.fileName := by
    by_cases hout : out = Configuration.fileName
    · obtain ⟨f, hf⟩ := hfile hout
      have hthere := hf.isThere
      have hthere' := (h.isFileAt_iff.mpr hf).isThere
      rw [at?_child hroot] at hthere
      rw [at?_child hroot'] at hthere'
      rw [hthere, hthere']
    · exact hsame.lookup_eq (Ne.symm hout)
  have hlink' : disk'.NoLinkAt (root ++ [Configuration.fileName]) := by
    intro t m h
    rw [at?_child hroot', hlookup, ← at?_child hroot] at h
    exact hlink t m h
  rw [load_text h.areNames_root hroot hlink, load_text h.areNames_root hroot' hlink', h.reached]
  cases hreach : disk.reach? root with
  | none => rfl
  | some x =>
    -- on a way that is open, what is at the root tells what is found there
    obtain ⟨x', hreach'⟩ := Option.isSome_iff_exists.mp (h.reached.trans (by rw [hreach]; rfl))
    cases hroot.symm.trans (at?_of_reach? hreach)
    cases hroot'.symm.trans (at?_of_reach? hreach')
    have hlocate := locate_text_child_eq hnames hreach hreach' hlookup hlink true
    have hexists : disk'.existsAt (Location.text (root ++ [Configuration.fileName])) =
        disk.existsAt (Location.text (root ++ [Configuration.fileName])) := by
      unfold existsAt seek
      rw [hlocate]
    have hofFile : Configuration.ofFile disk' (root ++ [Configuration.fileName]) =
        Configuration.ofFile disk (root ++ [Configuration.fileName]) := by
      unfold Configuration.ofFile readText readOctets
      rw [hlocate]
    rw [hexists, hofFile]

/-! ### Options -/

/-- Whether the configuration cannot change between two disks that hold the same project: it is in
no link, or in one that leads to the same configuration. -/
def IsConfiguredAlike (root : Location) (disk disk' : Entry) : Prop :=
  disk.NoLinkAt (root ++ [Configuration.fileName]) ∨
    Configuration.load disk' root.text = Configuration.load disk root.text

/-- The output directory is the one of the configuration, whatever is wished. -/
theorem outputDirectory_of_optionsOf {wishes : Overrides} {o : Options}
    (h : optionsOf disk root wishes = .ok o) :
    ∃ c, configurationOf disk root = .ok c ∧ o.outputDirectory = c.outputDirectory := by
  unfold optionsOf at h
  cases hc : configurationOf disk root with
  | error f =>
    rw [hc] at h
    cases h
  | ok c =>
    rw [hc] at h
    refine ⟨c, rfl, ?_⟩
    dsimp only [bind, Except.bind] at h
    cases ho : (Options.ofConfiguration c).1.override? wishes with
    | none =>
      rw [ho] at h
      cases h
    | some o' =>
      rw [ho] at h
      cases h
      unfold Options.override? at ho
      split at ho
      · cases ho
      · cases ho
        rfl

/-- The options are the same on disks that hold the same project, if there are any. -/
theorem optionsOf_eq_of_sameProject (h : SameProject root out disk disk')
    (hproject : IsProject root out disk)
    (hconfigured : IsConfiguredAlike root disk disk') {wishes : Overrides} {o : Options}
    (ho : optionsOf disk root wishes = .ok o) (hout : o.outputDirectory = out)
    (wishes' : Overrides) : optionsOf disk' root wishes' = optionsOf disk root wishes' := by
  obtain ⟨c, hc, hoc⟩ := outputDirectory_of_optionsOf ho
  have hload : Configuration.load disk' root.text = Configuration.load disk root.text := by
    rcases hconfigured with hlink | hload
    · refine load_eq_of_sameProject h hlink ?_
      rintro rfl
      -- Without a file the directory for output has another name.
      obtain ⟨octets, m, hfile⟩ := exists_file_of_configurationOf hproject hlink hc (by
        rintro rfl
        rw [hoc] at hout
        exact absurd hout (by decide))
      exact ⟨_, hfile, rfl, nofun⟩
    · exact hload
  unfold optionsOf configurationOf
  rw [hload]

/-- A plain name is the top of the output directory by itself. -/
theorem outputTop_of_isName (hout : Path.IsName out) : outputTop out = .ok [out] := by
  have hnames : Path.AreNames [out] := by simpa using hout
  have hempty := mt (Path.ofSegments_eq_empty_iff hnames).mp (by simp)
  have hcomponents := Path.components_ofSegments hnames
  rw [Path.ofSegments_singleton] at hempty hcomponents
  unfold outputTop
  rw [if_neg hempty, hout.isAbsolute_eq_false, if_neg Bool.false_ne_true, hcomponents]

/-- The directory for output is passed over. -/
theorem mem_ignoreDirectories (hout : Path.IsName out) {o : Options} (ho : o.outputDirectory = out)
    {st : WalkSettings} (hst : walkSettings o = .ok st) : out ∈ st.ignoreDirectories := by
  unfold walkSettings at hst
  rw [ho, outputTop_of_isName hout] at hst
  cases hst
  exact Text.mem_distinct.mpr (List.mem_append_right _ List.mem_cons_self)

/-! ### The preparation -/

variable {s : Surveyor} {wishes : Overrides} {o : Options} {sc : Scan} {ms : Manifests}

/-- The preparation succeeds when the root is found and options, walk and manifests are given. -/
theorem preparation_eq_ok_iff : s.preparation disk root wishes = .ok (o, sc, ms) ↔
    Walk.checkRoot disk root root.text = .ok () ∧ optionsOf disk root wishes = .ok o ∧
      (∃ st, walkSettings o = .ok st ∧ Walk.scan s.tables st disk root = .ok sc) ∧
      manifestsOf disk root sc.rootFiles = ms := by
  unfold preparation scanOf
  cases Walk.checkRoot disk root root.text with
  | error f => simp
  | ok u =>
    cases optionsOf disk root wishes with
    | error f => simp
    | ok o' =>
      dsimp only
      cases hst : walkSettings o' with
      | error f =>
        constructor
        · nofun
        · rintro ⟨-, ho, ⟨st, hst', -⟩, -⟩
          cases ho
          rw [hst] at hst'
          cases hst'
      | ok st =>
        dsimp only [bind, Except.bind]
        cases hsc : Walk.scan s.tables st disk root with
        | error f =>
          constructor
          · nofun
          · rintro ⟨-, ho, ⟨st', hst', hsc'⟩, -⟩
            cases ho
            rw [hst] at hst'
            cases hst'
            rw [hsc] at hsc'
            cases hsc'
        | ok sc' =>
          constructor
          · intro h
            cases h
            exact ⟨rfl, rfl, ⟨st, hst, hsc⟩, rfl⟩
          · rintro ⟨-, ho, ⟨st', hst', hsc'⟩, rfl⟩
            cases ho
            rw [hst] at hst'
            cases hst'
            rw [hsc] at hsc'
            cases hsc'
            rfl

/-- Wishing for no cache changes the one option. -/
theorem optionsOf_uncached (disk : Entry) (root : Location) (wishes : Overrides) :
    optionsOf disk root wishes.uncached =
      (optionsOf disk root wishes).map fun o => { o with cache := false } := by
  unfold optionsOf
  cases configurationOf disk root with
  | error f => rfl
  | ok c =>
    dsimp only [bind, Except.bind]
    unfold Options.override? Overrides.uncached
    by_cases hdepth : wishes.maxDepth.getD 1 < 1
    · rw [if_pos hdepth, if_pos hdepth]
      rfl
    · rw [if_neg hdepth, if_neg hdepth]
      rfl

/-- Wishing for no cache changes the preparation in the one option. -/
theorem preparation_uncached (s : Surveyor) (disk : Entry) (root : Location) (wishes : Overrides) :
    s.preparation disk root wishes.uncached =
      (s.preparation disk root wishes).map fun p => ({ p.1 with cache := false }, p.2) := by
  unfold preparation
  rw [optionsOf_uncached]
  cases Walk.checkRoot disk root root.text with
  | error f => rfl
  | ok u =>
    cases optionsOf disk root wishes with
    | error f => rfl
    | ok o =>
      have hscan : s.scanOf disk root { o with cache := false } = s.scanOf disk root o := rfl
      dsimp only [Except.map]
      rw [hscan]
      cases s.scanOf disk root o <;> rfl

/-- A preparation that fails is the outcome, and the disk stays as it is. -/
theorem outcome_of_error {f : Failure} (h : s.preparation disk root wishes = .error f)
    (time : Int) : s.outcome disk time root wishes = (.error f, disk) := by
  unfold outcome
  rw [h]

/-- Evidence whose findings all name their rules never makes a survey break down. -/
theorem withNamedRules_eq_ok {found : Assoc String Evidence}
    (h : ∀ p ∈ found, ∀ f ∈ p.2.findings, f.ruleId.isContainer = false) :
    withNamedRules found = .ok found := by
  unfold withNamedRules
  refine if_neg ?_
  rw [Bool.not_eq_true, List.any_eq_false]
  intro p hp
  rw [Bool.not_eq_true, List.any_eq_false]
  intro f hf
  rw [h p hp f hf]
  exact Bool.false_ne_true

/-- What is found in a file as it is there names its rule. -/
theorem isContainer_of_mem_fresh {g : Gathering} {r : FileRecord} {f : Finding}
    (hf : f ∈ (g.fresh r).findings) : f.ruleId.isContainer = false := by
  unfold Gathering.fresh at hf
  cases htext : g.read r.path with
  | none =>
    rw [htext] at hf
    cases hf
  | some text =>
    rw [htext, Evidence.ofText, Engine.scanContent, List.mem_filterMap] at hf
    obtain ⟨rule, -, hf⟩ := hf
    cases rule with
    | project i check => cases hf
    | content i languages skipsTests check =>
      rw [Rule.findingIn?] at hf
      cases ho : check text with
      | seen s =>
        rw [ho] at hf
        cases hf
        rfl
      | clear =>
        rw [ho] at hf
        cases hf
      | failed =>
        rw [ho] at hf
        cases hf

/-- Fresh evidence never makes a survey break down. -/
theorem withNamedRules_fresh (g : Gathering) (records : List FileRecord) :
    withNamedRules (g.gather none records).1 = .ok (g.gather none records).1 := by
  refine withNamedRules_eq_ok ?_
  intro p hp f hf
  rw [Gathering.gather_none] at hp
  obtain ⟨r, -, rfl⟩ := List.mem_map.mp hp
  exact isContainer_of_mem_fresh hf

/-- Without the cache all evidence is fresh, and the disk stays as it is. -/
theorem evidenceOf_uncached (s : Surveyor) (disk : Entry) (time : Int) {o : Options}
    (ho : o.cache = false) (scan : Scan) :
    s.evidenceOf disk time o scan =
      (if (s.signatureOf? o).isSome then
        .ok ((s.gatheringOf disk scan.root o).gather none scan.files).1
      else .error (.invalid Failure.unshowableText), disk) := by
  have hnamed := withNamedRules_fresh (s.gatheringOf disk scan.root o) scan.files
  have hnone : ((s.gatheringOf disk scan.root o).gather none scan.files).2 = none := by
    rw [Gathering.gather_none]
  unfold evidenceOf cacheOf
  rw [if_neg (by simp [ho])]
  dsimp only
  generalize (s.gatheringOf disk scan.root o).gather none scan.files = gathered at hnone hnamed ⊢
  obtain ⟨found, cache⟩ := gathered
  subst hnone
  cases s.signatureOf? o with
  | none => rfl
  | some signature => exact congrArg (·, disk) hnamed

/-- What comes of evidence without the cache was gathered without one, and the disk stays. -/
theorem eq_gather_of_evidenceOf_uncached {disk disk' : Entry} {time : Int} {o : Options}
    (ho : o.cache = false) {scan : Scan} {found : Assoc String Evidence}
    (h : s.evidenceOf disk time o scan = (.ok found, disk')) :
    found = ((s.gatheringOf disk scan.root o).gather none scan.files).1 ∧ disk' = disk := by
  rw [evidenceOf_uncached s disk time ho] at h
  obtain ⟨hfound, hdisk⟩ := Prod.mk.inj h
  refine ⟨?_, hdisk.symm⟩
  by_cases hsigned : (s.signatureOf? o).isSome = true
  · rw [if_pos hsigned] at hfound
    exact (Except.ok.inj hfound).symm
  · rw [if_neg hsigned] at hfound
    cases hfound

/-- A survey without the cache is made of fresh evidence and leaves the disk as it is, if there is a
signature. -/
theorem outcome_uncached (h : s.preparation disk root wishes = .ok (o, sc, ms)) (time : Int) :
    s.outcome disk time root wishes.uncached =
      (if (s.signatureOf? o).isSome then
        .ok (s.conclusion disk root o sc ms
          ((s.gatheringOf disk sc.root o).gather none sc.files).1)
      else .error (.invalid Failure.unshowableText), disk) := by
  have hgathering : s.gatheringOf disk sc.root { o with cache := false } =
      s.gatheringOf disk sc.root o := rfl
  have hsignature : s.signatureOf? { o with cache := false } = s.signatureOf? o := rfl
  unfold outcome
  rw [preparation_uncached, h]
  dsimp only [Except.map]
  rw [evidenceOf_uncached s disk time rfl sc, hgathering, hsignature]
  cases s.signatureOf? o <;> rfl

/-- A refusal of the system to keep the cache does not count. -/
theorem kept_of_refusal {found : List (String × Evidence)} {failed : Option Failure}
    (h : ∀ f, failed = some f → f.refusal?.isSome = true) :
    kept found failed = withNamedRules found := by
  cases failed with
  | none => rfl
  | some f => exact if_pos (h f rfl)

/-- What was gathered and its cache, after keeping it. -/
theorem written_some (disk : Entry) (time : Int) (path : String) (found : List (String × Evidence))
    (c : EvidenceCache) :
    written disk time path (found, some c) =
      (kept found (c.persist disk time (some path)).2.2, (c.persist disk time (some path)).2.1) :=
  rfl

/-- Keeping a cache whose integers can be shown takes nothing from what was gathered. -/
theorem fst_written_some {c : EvidenceCache} (hshow : c.toDatum.isShowable = true) {l : Location}
    (hl : Path.AreNames l) (disk : Entry) (time : Int) (found : List (String × Evidence)) :
    (written disk time l.text (found, some c)).1 = withNamedRules found := by
  rw [written_some]
  exact kept_of_refusal fun f hf => EvidenceCache.isSome_refusal?_of_persist hshow hl hf

/-- What is left of evidence after the cache was kept is what was gathered. -/
theorem fst_written_eq_ok {disk : Entry} {time : Int} {path : String}
    {gathered : List (String × Evidence) × Option EvidenceCache} {found : Assoc String Evidence}
    (h : (written disk time path gathered).1 = .ok found) : found = gathered.1 := by
  have hnamed : ∀ {found' : List (String × Evidence)}, withNamedRules found' = .ok found →
      found = found' := by
    intro found' hfound
    unfold withNamedRules at hfound
    split at hfound
    · cases hfound
    · exact (Except.ok.inj hfound).symm
  obtain ⟨found', cache⟩ := gathered
  cases cache with
  | none => exact hnamed h
  | some c =>
    rw [written_some] at h
    unfold kept at h
    dsimp only at h
    split at h
    · exact hnamed h
    · split at h
      · exact hnamed h
      · cases h

variable {s' : Surveyor}

end Surveyor

end ProjectSurvey
