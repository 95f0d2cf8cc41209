import ProjectSurvey.Proofs.Walk.Result

/-!
# Passing over one more name

Two walks of one project that differ in one directory name that is passed over. **The walk that
passes over it comes to the files of the other one that lie in no directory of that name**
(`files_passing`), in the same order and with the same records: a name is passed over at every depth
and for nothing but directories.
-/

namespace ProjectSurvey.Walk

namespace Scope

/-- The scope in which the given directory names are passed over. -/
def passing (s : Scope) (ignored : List String) : Scope :=
  { s with settings := { s.settings with ignoreDirectories := ignored } }

variable {s : Scope} {ignored : List String} {out : String} {levels : Nat}
  {names way : List String} {e d top : Entry}

/-- One more ignored name keeps the walk out of the directories of that name. -/
theorem enters_passing_iff
    (hignored : ∀ n, n ∈ ignored ↔ n ∈ s.settings.ignoreDirectories ∨ n = out)
    (name path : String) :
    (s.passing ignored).enters name path = true ↔ s.enters name path = true ∧ name ≠ out := by
  rw [enters_iff, enters_iff]
  show name ∉ ignored ∧ _ ↔ _
  rw [hignored, not_or]
  tauto

/-- Nothing else keeps the walk out. -/
theorem leads_passing_iff
    (hignored : ∀ n, n ∈ ignored ↔ n ∈ s.settings.ignoreDirectories ∨ n = out) :
    (s.passing ignored).Leads levels names e way d ↔ s.Leads levels names e way d ∧ out ∉ way := by
  constructor
  · rintro ⟨hthere, hdir, hdepth, hlisted, hentered⟩
    refine ⟨⟨hthere, hdir, hdepth, hlisted, ?_⟩, ?_⟩
    · intro front n back hway
      exact ((enters_passing_iff hignored _ _).mp (hentered front n back hway)).1
    · intro hmem
      obtain ⟨front, back, hway⟩ := List.append_of_mem hmem
      exact ((enters_passing_iff hignored _ _).mp (hentered front out back hway)).2 rfl
  · rintro ⟨⟨hthere, hdir, hdepth, hlisted, hentered⟩, hout⟩
    refine ⟨hthere, hdir, hdepth, hlisted, ?_⟩
    intro front n back hway
    refine (enters_passing_iff hignored _ _).mpr ⟨hentered front n back hway, ?_⟩
    rintro rfl
    exact hout (hway ▸ List.mem_append_right front List.mem_cons_self)

/-- The walk that passes over a name finds what does not lie below it. -/
theorem mem_found_passing
    (hignored : ∀ n, n ∈ ignored ↔ n ∈ s.settings.ignoreDirectories ∨ n = out)
    (htree : top.IsTree) (htop : top.isDirectory = true) {p : List String × Entry} :
    p ∈ (s.passing ignored).found levels [] top ↔ p ∈ s.found levels [] top ∧ out ∉ p.1 := by
  rw [mem_found htree htop Path.areNames_nil, mem_found htree htop Path.areNames_nil]
  simp only [leads_passing_iff hignored, List.nil_append, exists_eq_left']

/-- **The files in no directory of the name are found**, and no others. -/
theorem foundFiles_passing
    (hignored : ∀ n, n ∈ ignored ↔ n ∈ s.settings.ignoreDirectories ∨ n = out)
    (htree : top.IsTree) (htop : top.isDirectory = true) :
    (s.passing ignored).foundFiles levels [] top =
      (s.foundFiles levels [] top).filter fun q => decide (out ∉ q.1.dropLast) := by
  refine eq_of_pairwise_before Prod.fst
    ((s.passing ignored).pairwise_foundFiles levels htree Path.areNames_nil)
    ((s.pairwise_foundFiles levels htree Path.areNames_nil).filter _) ?_
  intro q
  -- a file lies in the directories that lead to it
  have hcounted : ∀ dirs (x : Entry), (s.passing ignored).counted dirs x = s.counted dirs x :=
    fun _ _ => rfl
  rw [List.mem_filter, decide_eq_true_eq]
  unfold foundFiles
  simp only [List.mem_flatMap, List.mem_map, mem_found_passing hignored htree htop, hcounted]
  constructor
  · rintro ⟨p, ⟨hp, hout⟩, f, hf, rfl⟩
    exact ⟨⟨p, hp, f, hf, rfl⟩, by rwa [List.dropLast_concat]⟩
  · rintro ⟨⟨p, hp, f, hf, rfl⟩, hout⟩
    rw [List.dropLast_concat] at hout
    exact ⟨p, ⟨hp, hout⟩, f, hf, rfl⟩

end Scope

variable {s : Scope} {top : Entry} {ignored : List String} {out : String}

/-- The names of the directories that a path leads through. -/
def directoriesOf (path : String) : List String := (Path.components path).dropLast

/-- The files of the scan that passes over a name are those in no directory of that name. -/
theorem files_scanOf_passing
    (hignored : ∀ n, n ∈ ignored ↔ n ∈ s.settings.ignoreDirectories ∨ n = out)
    (htree : top.IsTree) (htop : top.isDirectory = true) :
    (scanOf (s.passing ignored) top).files =
      (scanOf s top).files.filter fun r => decide (out ∉ directoriesOf r.path) := by
  have hseen := isTree_seen top htree
  have hseenTop := (isDirectory_seen top).trans htop
  rw [files_scanOf htree, files_scanOf htree, List.filter_map]
  show ((s.passing ignored).foundFiles s.listedLevels [] (seen top)).map _ = _
  rw [Scope.foundFiles_passing hignored hseen hseenTop]
  refine congrArg (List.map _) (List.filter_congr ?_)
  intro q hq
  obtain ⟨way, -, -, hnames⟩ := Scope.exists_of_mem_foundFiles hseen hseenTop Path.areNames_nil hq
  rw [Function.comp_apply, directoriesOf, components_recordAt hnames]

/-- Passing over a name makes the tree no deeper. -/
theorem levels_scanOf_passing
    (hignored : ∀ n, n ∈ ignored ↔ n ∈ s.settings.ignoreDirectories ∨ n = out)
    (htree : top.IsTree) (htop : top.isDirectory = true) {m : Nat}
    (h : (scanOf s top).tree.levels ≤ m) : (scanOf (s.passing ignored) top).tree.levels ≤ m := by
  rw [tree_scanOf htree htop, Scope.levels_nest_le_iff] at h ⊢
  intro p hp
  exact h p ((Scope.mem_found_passing hignored (isTree_seen top htree)
    ((isDirectory_seen top).trans htop)).mp hp).1

/-- The tree holds the files of the scan. -/
theorem allFiles_tree_scanOf (htree : top.IsTree) (htop : top.isDirectory = true) :
    (scanOf s top).tree.allFiles = (scanOf s top).files := by
  rw [tree_scanOf htree htop, Scope.allFiles_nest, files_scanOf htree]

/-- A walk with a result starts from a directory. -/
theorem Scope.exists_startsAt {scan : Scan} (h : s.scan = .ok scan) : ∃ top, s.StartsAt top := by
  unfold Scope.scan scanUnder at h
  cases hcheck : checkRoot s.disk s.root s.root.text with
  | error f =>
    rw [hcheck] at h
    cases h
  | ok u =>
    rw [hcheck] at h
    cases hroot : s.disk.at? s.root with
    | none =>
      rw [hroot] at h
      cases h
    | some top =>
      rw [hroot] at h
      simp only [bind, Except.bind] at h
      split at h
      · cases h
      · next hlisted =>
        rw [Bool.not_eq_true, Option.isNone_eq_false_iff] at hlisted
        rw [← Path.ofSegments_nil] at hlisted
        exact ⟨top, hcheck, hroot,
          Scope.isListed_nil_iff.mpr ((s.isSome_contents?_iff [] top).mp hlisted)⟩

/-- **A walk that passes over one more name has a result where the other one has**: its files that
lie in no directory of that name. -/
theorem files_passing (hignored : ∀ n, n ∈ ignored ↔ n ∈ s.settings.ignoreDirectories ∨ n = out)
    (hdisk : s.disk.IsTree) {scan : Scan} (hscan : s.scan = .ok scan) :
    ∃ scan', (s.passing ignored).scan = .ok scan' ∧ scan'.tree.allFiles = scan'.files ∧
      scan'.files = scan.files.filter fun r => decide (out ∉ directoriesOf r.path) := by
  obtain ⟨top, hstart⟩ := Scope.exists_startsAt hscan
  have htree : top.IsTree := (hdisk.areNames_of_at? hstart.isThere).2
  have htop := hstart.isDirectory
  have hstart' : (s.passing ignored).StartsAt top := ⟨hstart.check, hstart.isThere,
    ⟨hstart.listed.granted, hstart.listed.taken⟩⟩
  rw [scan_eq hstart] at hscan
  split at hscan
  · cases hscan
  · next hlevels =>
    cases hscan
    have hlevels' := levels_scanOf_passing hignored htree htop (Nat.not_lt.mp hlevels)
    refine ⟨scanOf (s.passing ignored) top, ?_, allFiles_tree_scanOf htree htop,
      files_scanOf_passing hignored htree htop⟩
    rw [scan_eq hstart', if_neg (Nat.not_lt.mpr hlevels')]

end ProjectSurvey.Walk
