import ProjectSurvey.Proofs.CommandLine.Effects
import ProjectSurvey.Proofs.Configuration.Options
import ProjectSurvey.Proofs.Configuration.Texts
import ProjectSurvey.Proofs.Survey.Key
import ProjectSurvey.Proofs.Walk.Result

/-!
# Surveys under any configuration

A configuration may say anything, and the files of a project may hold anything. **A survey of a
readable project without the cache comes to an end unless one of four things stands in its way**
(`conduct_isOk_iff_of_mapping`): an integer that cannot be shown where the configuration counts a
value as a text, a number of lines for oversized files that cannot be shown and so cannot be signed,
a directory for output that is a path without a name, and a walk that goes further down than a tree
may.
-/

namespace ProjectSurvey

open Entry

/-! ### The walk -/

/-- A walk comes to an end unless it comes to a directory too far down. -/
theorem Walk.scan_isOk_iff {s : Walk.Scope} {top : Entry} (hdisk : s.disk.IsTree)
    (hstart : s.StartsAt top) (hdepth : 1 ≤ s.settings.maxDepth) :
    (∃ scan, s.scan = .ok scan) ↔ ∀ dirs, s.Reaches top dirs → dirs.length ≤ Walk.levelLimit := by
  constructor
  · rintro ⟨scan, hscan⟩ dirs hreaches
    by_contra hdeep
    rw [scan_of_deep hdisk hstart hdepth hreaches (Nat.lt_of_not_le hdeep)] at hscan
    cases hscan
  · intro hlevels
    have htree : top.IsTree := (hdisk.areNames_of_at? hstart.isThere).2
    rw [scan_eq hstart, if_neg (Nat.not_lt.mpr
      (levels_scanOf_le htree hstart.isDirectory hdepth hlevels))]
    exact ⟨_, rfl⟩

/-! ### The configuration file -/

namespace Configuration

/-- Whether a path for output is none at all or has a first name. -/
def IsNamed (directory : String) : Prop :=
  directory = "" ∨ Path.isAbsolute directory = true ∨ Path.components directory ≠ []

/-- Whether the number of lines that a mapping sets for oversized files can be signed. -/
def IsSignable (d : Yaml.Document) : Prop :=
  ∀ n, integer? (setting d "rules" "oversized_file_lines") = some n → n < Datum.shownBelow

/-- The options of a mapping can be signed if and only if its number of lines can. -/
theorem natAbs_oversizedLines_lt_iff {d : Yaml.Document} {c : Configuration}
    (hc : ofDocument d = .ok c) :
    (Options.ofConfiguration c).1.oversizedLines.natAbs < Datum.shownBelow ↔ IsSignable d := by
  have husual : Options.defaultOversized.natAbs < Datum.shownBelow :=
    Json.lt_shownBelow_of_lt (n := 500) (by decide)
  show (Options.atLeast 1 "rules.oversized_file_lines" c.oversizedLines
    Options.defaultOversized).1.natAbs < Datum.shownBelow ↔ IsSignable d
  rw [Options.natAbs_atLeast_one_lt_iff husual, (hasNumbers_ofDocument hc).oversizedLines]
  exact Iff.rfl

/-- Whether the configuration file of a project holds a mapping. -/
structure Holds (disk : Entry) (root : Location) (d : Yaml.Document) (l : Location)
    (text : List Char) : Prop where
  /-- There is a file, -/
  resolved : disk.resolve (Path.join root.text fileName) = .ok l
  /-- whose text can be read -/
  read : disk.readText l.text = .ok text
  /-- and is not blank, -/
  notBlank : (Text.strip text).isEmpty = false
  /-- and what the text means -/
  means : Yaml.Document.ofText text = .ok d
  /-- is a mapping. -/
  isTable : d.isTable d.root = true

/-- A text that means a table is read as its document says. -/
theorem ofText_of_mapping {text : List Char} {d : Yaml.Document}
    (hblank : (Text.strip text).isEmpty = false) (hmeans : Yaml.Document.ofText text = .ok d)
    (htable : d.isTable d.root = true) : ofText text = ofDocument d := by
  unfold ofText
  rw [hblank, hmeans]
  dsimp only
  rw [if_neg Bool.false_ne_true, htable]
  cases htruthy : d.truthy d.root with
  | true => rfl
  | false => exact (ofDocument_of_empty (get?_eq_none_of_not_truthy htable htruthy)).symm

/-- **The configuration of a project whose file holds a mapping is that of the mapping.** -/
theorem Holds.load_eq {disk : Entry} {root : Location} {d : Yaml.Document} {l : Location}
    {text : List Char} (h : Holds disk root d l text)
    (hcheck : Walk.checkRoot disk root root.text = .ok ()) :
    load disk root.text = (ofDocument d).mapError (Failure.configuration l.name) := by
  have hpath : filePath disk root.text = .ok (Path.join root.text fileName) := by
    unfold Walk.checkRoot at hcheck
    unfold filePath directoryAt
    cases hseek : disk.seek root.text with
    | error f =>
      rw [hseek] at hcheck
      cases hcheck
    | ok e =>
      rw [hseek] at hcheck
      cases e with
      | none => cases hcheck
      | some e =>
        cases e with
        | directory es b g => rfl
        | file o m => cases hcheck
        | link t m => cases hcheck
  have hexists : disk.existsAt l.text = .ok true := by
    have hread := h.read
    unfold readText readOctets at hread
    unfold existsAt seek
    cases hlocate : disk.locate true l.text with
    | error f =>
      rw [hlocate] at hread
      cases hread
    | ok p => rfl
  unfold load
  rw [hpath]
  dsimp only
  rw [h.resolved]
  dsimp only
  unfold ofFile
  rw [hexists, h.read]
  dsimp only
  rw [ofText_of_mapping h.notBlank h.means h.isTable]
  cases ofDocument d <;> rfl

end Configuration

namespace Surveyor

/-! ### The options -/

/-- Options always allow for the root. -/
theorem one_le_maxDepth {disk : Entry} {root : Location} {wishes : Overrides} {o : Options}
    (h : optionsOf disk root wishes = .ok o) : 1 ≤ o.maxDepth := by
  unfold optionsOf at h
  cases hc : configurationOf disk root with
  | error f =>
    rw [hc] at h
    cases h
  | ok c =>
    rw [hc] at h
    dsimp only [bind, Except.bind] at h
    cases hw : (Options.ofConfiguration c).1.override? wishes with
    | none =>
      rw [hw] at h
      cases h
    | some o' =>
      rw [hw] at h
      cases h
      exact ((Options.isUsable_ofConfiguration c).override? hw).maxDepth

/-- The options of a project whose configuration file holds a mapping are those of the mapping. -/
theorem optionsOf_eq_ok_iff {disk : Entry} {root : Location} {d : Yaml.Document} {l : Location}
    {text : List Char} (h : Configuration.Holds disk root d l text)
    (hcheck : Walk.checkRoot disk root root.text = .ok ()) {wishes : Overrides} {o : Options} :
    optionsOf disk root wishes = .ok o ↔
      ∃ c, Configuration.ofDocument d = .ok c ∧
        (Options.ofConfiguration c).1.override? wishes = some o := by
  unfold optionsOf configurationOf
  rw [h.load_eq hcheck]
  cases hc : Configuration.ofDocument d with
  | error f =>
    -- What keeps a mapping from making a configuration is not forgiven.
    rw [Configuration.failsAtShowing_ofDocument d f hc]
    refine iff_of_false (fun ho => by cases ho) ?_
    rintro ⟨c, hc, -⟩
    cases hc
  | ok c =>
    simp only [Except.mapError, bind, Except.bind, Except.ok.injEq, exists_eq_left']
    cases (Options.ofConfiguration c).1.override? wishes <;> simp

/-- Overriding leaves the output directory and the limit of lines alone. -/
theorem override?_eq_some {o o' : Options} {wishes : Overrides}
    (h : o.override? wishes = some o') :
    o'.outputDirectory = o.outputDirectory ∧ o'.cache = wishes.cache.getD o.cache ∧
      o'.oversizedLines = o.oversizedLines := by
  obtain ⟨-, rfl⟩ := Options.override?_eq_some_iff.mp h
  exact ⟨rfl, rfl, rfl⟩

/-- Options are overridden when no depth is asked for that could be refused. -/
theorem exists_override?_eq_some {wishes : Overrides} (h : wishes.maxDepth = none) (o : Options) :
    ∃ o', o.override? wishes = some o' := by
  unfold Options.override?
  rw [h]
  exact ⟨_, rfl⟩

/-- The directory for output has to have a name. -/
theorem walkSettings_isOk_iff (o : Options) :
    (∃ st, walkSettings o = .ok st) ↔ Configuration.IsNamed o.outputDirectory := by
  unfold walkSettings
  rw [exists_bind_eq_ok_iff]
  unfold outputTop Configuration.IsNamed
  by_cases hempty : o.outputDirectory = ""
  · rw [if_pos hempty]
    exact iff_of_true ⟨_, rfl, _, rfl⟩ (.inl hempty)
  · rw [if_neg hempty, or_iff_right hempty]
    cases habsolute : Path.isAbsolute o.outputDirectory with
    | true => exact iff_of_true ⟨_, rfl, _, rfl⟩ (.inl rfl)
    | false =>
      rw [if_neg Bool.false_ne_true, or_iff_right Bool.false_ne_true]
      cases Path.components o.outputDirectory with
      | nil => exact iff_of_false (by simp) (not_not_intro rfl)
      | cons n names => exact iff_of_true ⟨_, rfl, _, rfl⟩ (List.cons_ne_nil n names)

/-- The settings of the walk take depth and patterns from the options. -/
theorem of_walkSettings {o : Options} {st : WalkSettings} (h : walkSettings o = .ok st) :
    st.maxDepth = o.maxDepth ∧ st.excludePatterns = o.excludePaths := by
  unfold walkSettings at h
  cases htop : outputTop o.outputDirectory with
  | error f =>
    rw [htop] at h
    cases h
  | ok top =>
    rw [htop] at h
    cases h
    exact ⟨rfl, rfl⟩

/-- The depth of the walk is that of the options. -/
theorem maxDepth_of_walkSettings {o : Options} {st : WalkSettings} (h : walkSettings o = .ok st) :
    st.maxDepth = o.maxDepth := (of_walkSettings h).1

/-- Whether a walk can start from the root, and from what. -/
structure IsReadable (disk : Entry) (root : Location) (top : Entry) : Prop where
  /-- The disk is a tree. -/
  isTree : disk.IsTree
  /-- The root passes its check. -/
  check : Walk.checkRoot disk root root.text = .ok ()
  /-- It is there. -/
  isThere : disk.at? root = some top
  /-- It may be listed. -/
  listed : top.mayList [] = true

/-- The walk of a project. -/
def scopeOf (s : Surveyor) (disk : Entry) (root : Location) (st : WalkSettings) : Walk.Scope :=
  ⟨s.tables, st, disk, root, Walk.rules st disk root⟩

/-- The scan of a survey's scope is the walk with its settings. -/
theorem scan_scopeOf (s : Surveyor) (disk : Entry) (root : Location) (st : WalkSettings) :
    (s.scopeOf disk root st).scan = Walk.scan s.tables st disk root := rfl

/-- Where everything can be read a scope starts at the top. -/
theorem IsReadable.startsAt {disk : Entry} {root : Location} {top : Entry}
    (h : IsReadable disk root top) (s : Surveyor) (st : WalkSettings) :
    (s.scopeOf disk root st).StartsAt top := by
  refine ⟨h.check, h.isThere, h.listed, ?_⟩
  have hcheck := h.check
  unfold Walk.checkRoot seek locate at hcheck
  show (checkPath root.text).isOk = true
  cases hpath : checkPath root.text with
  | ok u => rfl
  | error f =>
    rw [hpath] at hcheck
    dsimp only [Except.bind] at hcheck
    split at hcheck
    · cases hcheck
    · cases hcheck
    · rename_i heq
      split at heq <;> cases heq
    · cases hcheck

/-- What stands between the preparation of a survey without the cache and its end is the signature
alone. -/
theorem outcome_isOk_iff_of_preparation {s : Surveyor} {disk : Entry} {root : Location}
    {wishes : Overrides} {o : Options} {sc : Scan} {ms : Manifests}
    (hprep : s.preparation disk root wishes = .ok (o, sc, ms)) (time : Int) :
    (∃ survey, (s.outcome disk time root wishes.uncached).1 = .ok survey) ↔
      o.oversizedLines.natAbs < Datum.shownBelow := by
  rw [outcome_uncached hprep, ← Gathering.isSome_signatureOf?_iff (s.rulesFor o)]
  unfold signatureOf?
  generalize (Gathering.signatureOf? (s.rulesFor o) o.oversizedLines).isSome = signed
  cases signed with
  | true => exact iff_of_true ⟨_, rfl⟩ rfl
  | false =>
    refine iff_of_false ?_ Bool.false_ne_true
    rintro ⟨survey, h⟩
    cases h

/-- A survey without the cache comes to an end if and only if its options, its directory for output
and its walk allow it. -/
theorem outcome_isOk_iff {s : Surveyor} {disk : Entry} {root : Location} {top : Entry}
    (hreadable : IsReadable disk root top) (time : Int) (wishes : Overrides) :
    (∃ survey, (s.outcome disk time root wishes.uncached).1 = .ok survey) ↔
      ∃ o st, optionsOf disk root wishes = .ok o ∧ walkSettings o = .ok st ∧
        o.oversizedLines.natAbs < Datum.shownBelow ∧
        ∀ dirs, (s.scopeOf disk root st).Reaches top dirs → dirs.length ≤ Walk.levelLimit := by
  have hscan : ∀ {o st}, optionsOf disk root wishes = .ok o → walkSettings o = .ok st →
      ((∃ sc, Walk.scan s.tables st disk root = .ok sc) ↔
        ∀ dirs, (s.scopeOf disk root st).Reaches top dirs → dirs.length ≤ Walk.levelLimit) := by
    intro o st ho hst
    have hdepth : 1 ≤ st.maxDepth := by
      rw [maxDepth_of_walkSettings hst]
      exact one_le_maxDepth ho
    rw [← scan_scopeOf]
    exact Walk.scan_isOk_iff hreadable.isTree (hreadable.startsAt s st) hdepth
  constructor
  · rintro ⟨survey, hsurvey⟩
    cases hprep : s.preparation disk root wishes with
    | error f =>
      have huncached : s.preparation disk root wishes.uncached = .error f := by
        rw [preparation_uncached, hprep]
        rfl
      rw [outcome_of_error huncached] at hsurvey
      cases hsurvey
    | ok p =>
      obtain ⟨o, sc, ms⟩ := p
      obtain ⟨-, ho, ⟨st, hst, hsc⟩, -⟩ := preparation_eq_ok_iff.mp hprep
      have hsigned := (outcome_isOk_iff_of_preparation hprep time).mp ⟨survey, hsurvey⟩
      exact ⟨o, st, ho, hst, hsigned, (hscan ho hst).mp ⟨sc, hsc⟩⟩
  · rintro ⟨o, st, ho, hst, hsigned, hlevels⟩
    obtain ⟨sc, hsc⟩ := (hscan ho hst).mpr hlevels
    have hprep : s.preparation disk root wishes = .ok (o, sc, manifestsOf disk root sc.rootFiles) :=
      preparation_eq_ok_iff.mpr ⟨hreadable.check, ho, ⟨st, hst, hsc⟩, rfl⟩
    exact (outcome_isOk_iff_of_preparation hprep time).mpr hsigned

/-- Whether a survey does without the cache and without any wish beside. -/
def IsPlain (d : Yaml.Document) (wishes : Overrides) : Prop :=
  wishes = Overrides.none.uncached ∨
    wishes = Overrides.none ∧ ∀ c, Configuration.ofDocument d = .ok c → c.cache ≠ some true

/-- Plain wishes ask for no depth. -/
theorem IsPlain.maxDepth {d : Yaml.Document} {wishes : Overrides} (h : IsPlain d wishes) :
    wishes.maxDepth = none := by
  rcases h with rfl | ⟨rfl, -⟩ <;> rfl

/-- Without the cache wished for, it is off all the same. -/
theorem IsPlain.outcome_eq_uncached {d : Yaml.Document} {wishes : Overrides}
    (hplain : IsPlain d wishes) {s : Surveyor} {disk : Entry} {root : Location} {l : Location}
    {text : List Char} (hd : Configuration.Holds disk root d l text)
    (hcheck : Walk.checkRoot disk root root.text = .ok ()) (time : Int) :
    s.outcome disk time root wishes = s.outcome disk time root wishes.uncached := by
  rcases hplain with rfl | ⟨rfl, hoff⟩
  · rfl
  · cases hprep : s.preparation disk root Overrides.none with
    | error f =>
      have huncached : s.preparation disk root Overrides.none.uncached = .error f := by
        rw [preparation_uncached, hprep]
        rfl
      rw [outcome_of_error hprep, outcome_of_error huncached]
    | ok p =>
      obtain ⟨o, sc, ms⟩ := p
      obtain ⟨-, ho, -, -⟩ := preparation_eq_ok_iff.mp hprep
      obtain ⟨c, hc, hover⟩ := (optionsOf_eq_ok_iff hd hcheck).mp ho
      refine History.outcome_eq_uncached_of_cache hprep ?_ time
      rw [(override?_eq_some hover).2.1]
      show c.cache.getD false = false
      have hcache := hoff c hc
      cases hvalue : c.cache with
      | none => rfl
      | some b =>
        cases b with
        | false => rfl
        | true => exact absurd hvalue hcache

/-- **A survey of a readable project whose configuration is a mapping comes to an end if and only if
every value that counts as a text can be shown, the number of lines for oversized files can be
signed, the directory for output has a name, and the walk comes to no directory too far down.** -/
theorem conduct_isOk_iff_of_mapping {s : Surveyor} {w : Workspace} {path : String}
    {root : Location} {top : Entry} {d : Yaml.Document} {l : Location} {text : List Char}
    {wishes : Overrides} (hroot : ((Work.locateProject path).run w).1 = .ok root)
    (hreadable : IsReadable w.disk root top) (hd : Configuration.Holds w.disk root d l text)
    (hplain : IsPlain d wishes) :
    (∃ survey, ((s.conduct path none wishes).run w).1 = .ok survey) ↔
      Configuration.IsShowable d ∧ Configuration.IsSignable d ∧
      (∀ c, Configuration.ofDocument d = .ok c → Configuration.IsNamed c.outputDirectory) ∧
      ∀ o st, optionsOf w.disk root wishes = .ok o → walkSettings o = .ok st →
        ∀ dirs, (s.scopeOf w.disk root st).Reaches top dirs → dirs.length ≤ Walk.levelLimit := by
  have hlocated := (Work.keepsDisk_locateProject path).yields w
  rw [hroot] at hlocated
  rw [(conduct_yields hlocated s wishes).result_eq, hplain.outcome_eq_uncached hd hreadable.check,
    outcome_isOk_iff hreadable]
  constructor
  · rintro ⟨o, st, ho, hst, hsigned, hlevels⟩
    obtain ⟨c, hc, hover⟩ := (optionsOf_eq_ok_iff hd hreadable.check).mp ho
    rw [(override?_eq_some hover).2.2] at hsigned
    refine ⟨(Configuration.ofDocument_isOk_iff d).mp ⟨c, hc⟩,
      (Configuration.natAbs_oversizedLines_lt_iff hc).mp hsigned, ?_, ?_⟩
    · intro c' hc'
      rw [hc] at hc'
      cases hc'
      have hnamed := (walkSettings_isOk_iff o).mp ⟨st, hst⟩
      rwa [(override?_eq_some hover).1] at hnamed
    · intro o' st' ho' hst'
      rw [ho] at ho'
      cases ho'
      rw [hst] at hst'
      cases hst'
      exact hlevels
  · rintro ⟨hshowable, hsignable, hnamed, hlevels⟩
    obtain ⟨c, hc⟩ := (Configuration.ofDocument_isOk_iff d).mpr hshowable
    obtain ⟨o, hover⟩ := exists_override?_eq_some hplain.maxDepth (Options.ofConfiguration c).1
    have ho := (optionsOf_eq_ok_iff hd hreadable.check).mpr ⟨c, hc, hover⟩
    have hdirectory : Configuration.IsNamed o.outputDirectory := by
      rw [(override?_eq_some hover).1]
      exact hnamed c hc
    obtain ⟨st, hst⟩ := (walkSettings_isOk_iff o).mpr hdirectory
    have hsigned : o.oversizedLines.natAbs < Datum.shownBelow := by
      rw [(override?_eq_some hover).2.2]
      exact (Configuration.natAbs_oversizedLines_lt_iff hc).mpr hsignable
    exact ⟨o, st, ho, hst, hsigned, hlevels o st ho hst⟩

/-- **A directory for output without a name keeps a survey from coming to an end.** -/
theorem conduct_of_nameless {s : Surveyor} {w : Workspace} {path : String} {root : Location}
    {top : Entry} {d : Yaml.Document} {l : Location} {text : List Char} {wishes : Overrides}
    (hroot : ((Work.locateProject path).run w).1 = .ok root)
    (hreadable : IsReadable w.disk root top) (hd : Configuration.Holds w.disk root d l text)
    (hwishes : wishes.maxDepth = none) {c : Configuration} (hc : Configuration.ofDocument d = .ok c)
    (hnameless : ¬ Configuration.IsNamed c.outputDirectory) :
    ((s.conduct path none wishes).run w).1 = .error .namelessOutput := by
  have hlocated := (Work.keepsDisk_locateProject path).yields w
  rw [hroot] at hlocated
  obtain ⟨o, hover⟩ := exists_override?_eq_some hwishes (Options.ofConfiguration c).1
  have ho := (optionsOf_eq_ok_iff hd hreadable.check).mpr ⟨c, hc, hover⟩
  have hdirectory : o.outputDirectory = c.outputDirectory := (override?_eq_some hover).1
  have htop : outputTop o.outputDirectory = .error .namelessOutput := by
    rw [hdirectory]
    unfold Configuration.IsNamed at hnameless
    obtain ⟨hempty, habsolute, hnames⟩ : c.outputDirectory ≠ "" ∧
        Path.isAbsolute c.outputDirectory = false ∧ Path.components c.outputDirectory = [] := by
      simpa [not_or] using hnameless
    unfold outputTop
    rw [if_neg hempty, habsolute, if_neg Bool.false_ne_true, hnames]
  have hprep : s.preparation w.disk root wishes = .error .namelessOutput := by
    unfold preparation scanOf walkSettings
    rw [hreadable.check, ho]
    dsimp only
    rw [htop]
    rfl
  rw [(conduct_yields hlocated s wishes).result_eq, outcome_of_error hprep]

/-! ### Two configurations -/

open ProjectSurvey.Configuration (oddText namelessText)

/-- A disk with a project that has a configuration file. -/
def configuredDisk (text : String) : Entry :=
  .ofEntries [("p", .ofEntries [("a.py", .file (Text.Utf8.encode "x = 1\n".toList) 7),
    (Configuration.fileName, .file (Text.Utf8.encode text.toList) 7)])]

/-- A workspace with that disk. -/
def configuredWorkspace (text : String) : Workspace := ⟨configuredDisk text, [], [], 0, [], []⟩

/-- The disk with the configuration on it is a tree. -/
theorem isTree_configuredDisk (text : String) : (configuredDisk text).IsTree := by
  have hnames : (["a.py", Configuration.fileName] : List String).Nodup := by decide
  refine isTree_singleton (by decide) (isTree_directory.mpr ⟨hnames, ?_⟩)
  intro p hp
  simp only [List.mem_cons, List.not_mem_nil, or_false] at hp
  rcases hp with rfl | rfl
  · exact ⟨by decide, trivial⟩
  · exact ⟨isName_configuration, trivial⟩

/-- Everything the run looks at on it can be read. -/
theorem isReadable_configuredDisk (text : String) :
    ∃ top, IsReadable (configuredDisk text) ["p"] top :=
  ⟨_, isTree_configuredDisk text, rfl, rfl, rfl⟩

/-- Lines of printed characters in the configuration are read as they are. -/
theorem readText_configuredDisk {text : String} (hkept : ∀ c ∈ text.toList, Text.IsKept c) :
    (configuredDisk text).readText (Location.text ["p", Configuration.fileName]) =
      .ok text.toList := by
  have hl : Path.AreNames ["p", Configuration.fileName] := by
    rw [Path.areNames_cons, Path.areNames_cons]
    exact ⟨by decide, isName_configuration, Path.areNames_nil⟩
  have hcheck : checkPath (Location.text ["p", Configuration.fileName]) = .ok () := by
    decide
  refine readText_of_isKept hkept ?_
  rw [readOctets_text_of_file hl (show (configuredDisk text).reach? ["p", Configuration.fileName] =
    some (.file (Text.Utf8.encode text.toList) 7) from rfl), hcheck]
  rfl

/-- A configuration that is a mapping in printed lines is one in the project. -/
theorem holds_configuredDisk {text : String} {d : Yaml.Document} {c : Configuration}
    (h : Configuration.Configures text.toList d c) :
    Configuration.Holds (configuredDisk text) ["p"] d ["p", Configuration.fileName]
    text.toList where
  resolved := rfl
  read := readText_configuredDisk h.kept
  notBlank := h.notBlank
  means := h.means
  isTable := h.isTable

/-- The odd text is a configuration that holds, and the run gives a survey. -/
theorem conduct_oddText :
    ((Work.locateProject "/p").run (configuredWorkspace oddText)).1 = .ok ["p"] ∧
      ∃ top d, IsReadable (configuredDisk oddText) ["p"] top ∧
        Configuration.Holds (configuredDisk oddText) ["p"] d ["p", Configuration.fileName]
          oddText.toList ∧
        IsPlain d Overrides.none ∧
        ∃ survey, ((usual.conduct "/p" none Overrides.none).run (configuredWorkspace oddText)).1 =
          .ok survey := by
  have hroot : ((Work.locateProject "/p").run (configuredWorkspace oddText)).1 = .ok ["p"] := by
    rfl
  obtain ⟨top, hreadable⟩ := isReadable_configuredDisk oddText
  obtain ⟨d, c, hodd, hdirectory, hcache, hdepth, hlines⟩ := Configuration.exists_of_oddText
  have hd := holds_configuredDisk hodd
  have hc := hodd.shows
  have honly : ∀ c', Configuration.ofDocument d = .ok c' → c' = c := by
    intro c' hc'
    rw [hc] at hc'
    cases hc'
    rfl
  have hplain : IsPlain d Overrides.none := by
    refine .inr ⟨rfl, ?_⟩
    intro c' hc'
    rw [honly c' hc', hcache]
    exact (Option.some_ne_none true).symm
  refine ⟨hroot, top, d, hreadable, hd, hplain, ?_⟩
  refine (conduct_isOk_iff_of_mapping hroot hreadable hd hplain).mpr ⟨?_, ?_, ?_, ?_⟩
  · exact (Configuration.ofDocument_isOk_iff d).mp ⟨c, hc⟩
  · intro n hn
    have hnone := (Configuration.hasNumbers_ofDocument hc).oversizedLines
    rw [hlines] at hnone
    cases hnone.trans hn
  · intro c' hc'
    rw [honly c' hc', hdirectory]
    exact .inr (.inr (by decide))
  · intro o st ho hst dirs hreaches
    obtain ⟨c', hc', hover⟩ := (optionsOf_eq_ok_iff hd hreadable.check).mp ho
    rw [honly c' hc'] at hover
    have hlength : (dirs.length : Int) ≤ st.maxDepth - 1 := hreaches.depth
    have husual : o.maxDepth = 4 := by
      cases hover
      show (Options.atLeast 1 "analysis.max_depth" c.maxDepth Options.defaultDepth).1 = 4
      rw [hdepth]
      rfl
    rw [maxDepth_of_walkSettings hst, husual] at hlength
    unfold Walk.levelLimit
    omega

/-- A project that can be read, a configuration that is a mapping, no cache, and no survey. -/
theorem conduct_namelessText :
    ((Work.locateProject "/p").run (configuredWorkspace namelessText)).1 = .ok ["p"] ∧
      ∃ top d, IsReadable (configuredDisk namelessText) ["p"] top ∧
        Configuration.Holds (configuredDisk namelessText) ["p"] d ["p", Configuration.fileName]
          namelessText.toList ∧
        IsPlain d Overrides.none ∧
        ((usual.conduct "/p" none Overrides.none).run (configuredWorkspace namelessText)).1 =
          .error .namelessOutput := by
  have hroot :
      ((Work.locateProject "/p").run (configuredWorkspace namelessText)).1 = .ok ["p"] := by
    decide
  obtain ⟨top, hreadable⟩ := isReadable_configuredDisk namelessText
  obtain ⟨d, c, hnameless, hdirectory, hcache⟩ := Configuration.exists_of_namelessText
  have hd := holds_configuredDisk hnameless
  have hc := hnameless.shows
  refine ⟨hroot, top, d, hreadable, hd, .inr ⟨rfl, ?_⟩, ?_⟩
  · intro c' hc'
    rw [hc] at hc'
    cases hc'
    rw [hcache]
    exact (Option.some_ne_none true).symm
  · refine conduct_of_nameless hroot hreadable hd rfl hc ?_
    rw [hdirectory]
    unfold Configuration.IsNamed
    decide

end Surveyor

end ProjectSurvey
