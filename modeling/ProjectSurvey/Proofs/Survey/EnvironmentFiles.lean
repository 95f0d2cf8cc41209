import ProjectSurvey.Proofs.CommandLine.OwnFiles

/-!
# Environment files

The ignore file of a project is read twice: by the walk, if the options say so, which then leaves
the files out, and by the rule on environment files, which looks at those that the walk did not
leave out and reads no file that is larger than the options allow. **One finding comes for each
environment file at the root, unless it is ignored and one of the two read that it is**
(`Surveyor.conduct_flags`), so that the findings follow the ignore file alone exactly if the walk
reads it, or it is not too large, or it ignores no environment file. An ignore file that is too
large for the rule and is kept from the walk is the case that is missed
(`Surveyor.conduct_flags_ignored`).
-/

namespace ProjectSurvey

open Entry

/-! ### The ignore file -/

namespace Walk

/-- The rules of the ignore file of a project; none if there is no such file that can be read. -/
def fileRules (disk : Entry) (root : Location) : List IgnoreRule :=
  match disk.readText (Path.join root.text ignoreFile) with
  | .ok cs => IgnoreRule.ofLines (Text.lines cs)
  | .error _ => []

/-- Whether the ignore file of a project is larger than a limit. -/
def IsOversized (limit : Int) (disk : Entry) (root : Location) : Prop :=
  ∃ octets, disk.readOctets (Path.join root.text ignoreFile) = .ok octets ∧ limit < octets.length

variable {disk : Entry} {root : Location}

/-- Without patterns to pass over, the walk goes by the ignore file or by no rules. -/
theorem rules_of_unpatterned {st : WalkSettings} (h : st.excludePatterns = []) :
    rules st disk root = if st.useGitignore then fileRules disk root else [] := by
  unfold rules
  rw [h]
  exact List.append_nil _

/-- An ignore file beyond the limit is not read. -/
theorem readWithin_of_oversized {limit : Int} (h : IsOversized limit disk root) :
    disk.readWithin limit (Path.join root.text ignoreFile) = none := by
  obtain ⟨octets, hread, hlarge⟩ := h
  unfold readWithin
  rw [hread]
  exact if_pos hlarge

/-- What is read within a limit are the rules of the ignore file, unless it is larger. -/
theorem ofLines_readWithin {limit : Int} (h : ¬ IsOversized limit disk root) :
    IgnoreRule.ofLines (Text.lines
      ((disk.readWithin limit (Path.join root.text ignoreFile)).getD [])) =
        fileRules disk root := by
  unfold fileRules readWithin readText
  cases hread : disk.readOctets (Path.join root.text ignoreFile) with
  | error f => rfl
  | ok octets =>
    dsimp only
    rw [if_neg fun hlarge => h ⟨octets, hread, hlarge⟩]
    cases Text.Utf8.decode? octets <;> rfl

/-! ### The files at the root -/

/-- Whether a project has a file, or a link, of a name at its root, with a path that the system
takes. -/
structure HasRootFile (disk : Entry) (root : Location) (n : String) : Prop where
  /-- There is something other than a directory. -/
  isThere : ∃ e, disk.at? (root ++ [n]) = some e ∧ e.isDirectory = false
  /-- Its path is not too long. -/
  taken : (Location.text (root ++ [n])).utf8ByteSize ≤ pathLimit

/-- **A walk lists the files at the root that no rule leaves out.** -/
theorem mem_rootFiles_iff {t : Tables} {st : WalkSettings} {sc : Scan}
    (h : scan t st disk root = .ok sc) (htree : disk.IsTree) {n : String} :
    n ∈ sc.rootFiles ↔ HasRootFile disk root n ∧ n ∉ systemFiles ∧
      isIgnored n false (rules st disk root) = false := by
  obtain ⟨top, hroot, hlists, rfl⟩ := exists_lists_of_scan h
  obtain ⟨hnames, htop⟩ := htree.areNames_of_at? hroot
  have hchild : disk.at? (root ++ [n]) = top.child? n := by
    rw [at?_append, hroot, Option.bind_some, at?_cons]
    cases top.child? n <;> rfl
  obtain ⟨es, b, rfl, -⟩ := exists_searchable_of_scan h htree hroot
  have hlisted : Scope.Lists ⟨t, st, disk, root, rules st disk root⟩ []
      (seen (directory es b true)) := by
    refine ⟨?_, hlists.2⟩
    rw [← mayList_of_at?_seen (l := []) rfl]
    exact hlists.1
  -- the root may be searched, so that its files are seen
  have hseen : ∀ e, e.isDirectory = false →
      ((seen (directory es b true)).child? n = some e ↔ es.lookup n = some e) := by
    intro e he
    rw [child?_seen_of_searchable, Option.map_eq_some_iff]
    simp only [seen_eq_iff he, exists_eq_right]
  have hcounted : ∀ e, (n, e) ∈ Scope.counted ⟨t, st, disk, root, rules st disk root⟩ []
        (seen (directory es b true)) ↔
      disk.at? (root ++ [n]) = some e ∧ e.isDirectory = false ∧ n ∉ systemFiles ∧
        isIgnored n false (rules st disk root) = false ∧
        (Location.text (root ++ [n])).utf8ByteSize ≤ pathLimit := by
    intro e
    rw [Scope.mem_counted _ (isTree_seen _ htop) Path.areNames_nil,
      and_iff_right hlisted, hchild, Scope.counts_iff, List.nil_append,
      Path.ofSegments_singleton, and_left_comm, and_left_comm (b := e.isDirectory = false)]
    refine and_congr_right fun hfile => ?_
    rw [hseen e hfile]
    refine and_congr_right fun he => ?_
    have hname : Path.AreNames [n] := Path.areNames_cons.mpr ⟨(htop.child he).1, Path.areNames_nil⟩
    rw [← Scope.isTaken_iff (s := ⟨t, st, disk, root, rules st disk root⟩) hnames hname,
      Path.ofSegments_singleton]
  rw [rootFiles_scanOf htop hlists.isDirectory, List.mem_map]
  constructor
  · rintro ⟨⟨m, e⟩, hmem, rfl⟩
    obtain ⟨hat, hdir, hsystem, hrules, htaken⟩ := (hcounted e).mp hmem
    exact ⟨⟨⟨e, hat, hdir⟩, htaken⟩, hsystem, hrules⟩
  · rintro ⟨⟨⟨e, hat, hdir⟩, htaken⟩, hsystem, hrules⟩
    exact ⟨(n, e), (hcounted e).mpr ⟨hat, hdir, hsystem, hrules, htaken⟩, rfl⟩

/-- No file at the root is listed twice. -/
theorem nodup_rootFiles {t : Tables} {st : WalkSettings} {sc : Scan}
    (h : scan t st disk root = .ok sc) (htree : disk.IsTree) : sc.rootFiles.Nodup := by
  obtain ⟨top, hroot, hlists, rfl⟩ := exists_lists_of_scan h
  have htop := (htree.areNames_of_at? hroot).2
  rw [rootFiles_scanOf htop hlists.isDirectory, List.Nodup, List.pairwise_map]
  exact (Scope.pairwise_counted _ (isTree_seen _ htop) []).imp String.ne_of_lt

/-- The ignore file is a file at the root, if it can be read. -/
theorem hasRootFile_of_readOctets {top : Entry} (htree : disk.IsTree)
    (hroot : disk.at? root = some top) (htop : top.isDirectory = true) {octets : List UInt8}
    (h : disk.readOctets (Path.join root.text ignoreFile) = .ok octets) :
    HasRootFile disk root ignoreFile := by
  have hnames := (htree.areNames_of_at? hroot).1
  have hplace : Path.AreNames (root ++ [ignoreFile]) :=
    Path.areNames_append.mpr ⟨hnames, by simpa using isName_ignoreFile⟩
  rw [join_text_ignoreFile hnames] at h
  refine ⟨?_, ?_⟩
  · -- nothing is read where nothing is, and nothing of a directory
    by_contra hnone
    have hno : ∀ x, disk.at? (root ++ [ignoreFile]) = some x → x.isDirectory = true := by
      intro x hx
      by_contra hfile
      exact hnone ⟨x, hx, Bool.not_eq_true _ ▸ hfile⟩
    have hstraight : disk.IsStraight root := isStraight_of_at? hroot fun t m hlink => by
      rw [hlink] at htop
      cases htop
    obtain ⟨f, hf⟩ := readOctets_text_of_none hplace
      (hstraight.concat fun t m hlink => by cases hno _ hlink)
      fun octets m hfile => by cases hno _ hfile
    rw [hf] at h
    cases h
  · by_contra hlong
    have hcheck := checkPath_text hplace
    rw [if_pos (Nat.lt_of_not_le hlong)] at hcheck
    unfold readOctets at h
    rw [locate_of_error disk hcheck] at h
    cases h

end Walk

/-! ### What the rule sees -/

namespace ProjectChecks

/-- The rules under which the check on environment files leaves files out. -/
def seenRules (c : ProjectContext) : List IgnoreRule :=
  IgnoreRule.ofLines (Text.lines
    (if c.rootFiles.contains ".gitignore" then c.ignoreText.getD [] else []))

/-- The environment files that the check comes to. -/
def committed (c : ProjectContext) : List String :=
  (Text.sorted (c.rootFiles.filter isEnvFile)).filter fun n => !isIgnored n false (seenRules c)

/-- The rule sees each committed environment file. -/
theorem envFileCommitted_eq (c : ProjectContext) :
    envFileCommitted c = (committed c).map fun n => ⟨some n, some n, none⟩ := rfl

/-- A file counts as committed when it is an environment file at the root that no rule seen
ignores. -/
theorem mem_committed {c : ProjectContext} {n : String} : n ∈ committed c ↔
    n ∈ c.rootFiles ∧ isEnvFile n = true ∧ isIgnored n false (seenRules c) = false := by
  rw [committed, List.mem_filter, Text.mem_sorted, List.mem_filter, Bool.not_eq_true', and_assoc]

/-- The committed files are sorted. -/
theorem pairwise_committed {c : ProjectContext} (h : c.rootFiles.Nodup) :
    (committed c).Pairwise (· < ·) := by
  refine List.Pairwise.filter _ (Sorting.pairwise_mergeSort_lt id ?_)
  rw [List.map_id]
  exact h.filter _

/-- An environment file is none of the system's. -/
theorem not_systemFile_of_isEnvFile {n : String} (h : isEnvFile n = true) :
    n ∉ Walk.systemFiles := by
  have hnone : ∀ m ∈ Walk.systemFiles, isEnvFile m = false := by decide
  intro hmem
  rw [hnone n hmem] at h
  cases h

section

open Walk

variable {c : ProjectContext} {t : Tables} {st : WalkSettings} {disk : Entry} {root : Location}
  {sc : Scan} {limit : Int}

/-- Of an ignore file beyond the limit no rule is seen. -/
theorem seenRules_of_oversized
    (htext : c.ignoreText = disk.readWithin limit (Path.join root.text ignoreFile))
    (h : IsOversized limit disk root) : seenRules c = [] := by
  unfold seenRules
  rw [htext, readWithin_of_oversized h]
  split <;> rfl

/-- What the check does not see of the ignore file is nothing or all of it. -/
theorem seenRules_eq_or
    (htext : c.ignoreText = disk.readWithin limit (Path.join root.text ignoreFile)) :
    seenRules c = [] ∨ seenRules c = fileRules disk root := by
  by_cases hlarge : IsOversized limit disk root
  · exact .inl (seenRules_of_oversized htext hlarge)
  · unfold seenRules
    rw [htext]
    split
    · exact .inr (ofLines_readWithin hlarge)
    · exact .inl rfl

/-- Where the walk does not go by the ignore file it lists it, so that the check sees it. -/
theorem seenRules_of_listed (hscan : scan t st disk root = .ok sc) (htree : disk.IsTree)
    (hexclude : st.excludePatterns = []) (huse : st.useGitignore = false)
    (hfiles : c.rootFiles = sc.rootFiles)
    (htext : c.ignoreText = disk.readWithin limit (Path.join root.text ignoreFile))
    (hlarge : ¬ IsOversized limit disk root) : seenRules c = fileRules disk root := by
  unfold seenRules
  rw [htext]
  split
  · exact ofLines_readWithin hlarge
  · next hunlisted =>
    have hunreadable : ∀ octets,
        disk.readOctets (Path.join root.text ignoreFile) ≠ .ok octets := by
      intro octets hread
      obtain ⟨top, hroot, htop, -⟩ := scan_eq_ok hscan
      refine hunlisted (List.contains_iff_mem.mpr ?_)
      rw [hfiles]
      refine (mem_rootFiles_iff hscan htree).mpr
        ⟨hasRootFile_of_readOctets htree hroot htop hread, by decide, ?_⟩
      rw [rules_of_unpatterned hexclude, huse]
      rfl
    unfold fileRules readText
    cases hread : disk.readOctets (Path.join root.text ignoreFile) with
    | error f => rfl
    | ok octets => exact absurd hread (hunreadable octets)

/-- **The check comes to the environment files at the root, but for those that are ignored by a file
that the walk goes by or that is not too large.** -/
theorem mem_committed_iff (hscan : scan t st disk root = .ok sc) (htree : disk.IsTree)
    (hexclude : st.excludePatterns = []) (hfiles : c.rootFiles = sc.rootFiles)
    (htext : c.ignoreText = disk.readWithin limit (Path.join root.text ignoreFile)) {n : String} :
    n ∈ committed c ↔ (isEnvFile n = true ∧ HasRootFile disk root n) ∧
      (st.useGitignore = true ∨ ¬ IsOversized limit disk root →
        isIgnored n false (fileRules disk root) = false) := by
  rw [mem_committed, hfiles, mem_rootFiles_iff hscan htree, rules_of_unpatterned hexclude]
  by_cases henv : isEnvFile n = true
  swap
  · simp [henv]
  have hsystem := not_systemFile_of_isEnvFile henv
  simp only [henv, hsystem, not_false_eq_true, true_and]
  rw [and_assoc]
  refine and_congr_right fun _ => ?_
  cases huse : st.useGitignore with
  | true =>
    -- the check sees no rules that the walk does not go by
    simp only [if_true, true_or, true_imp_iff, and_iff_left_iff_imp]
    intro hkept
    rcases seenRules_eq_or htext with hnone | hall
    · rw [hnone]
      rfl
    · rwa [hall]
  | false =>
    have hnothing : isIgnored n false [] = false := rfl
    simp only [Bool.false_eq_true, if_false, false_or, hnothing, true_and]
    by_cases hlarge : IsOversized limit disk root
    · rw [seenRules_of_oversized htext hlarge]
      exact iff_of_true rfl fun hsmall => absurd hlarge hsmall
    · rw [seenRules_of_listed hscan htree hexclude huse hfiles htext hlarge]
      exact (imp_iff_right hlarge).symm

end

end ProjectChecks

/-! ### The findings of a survey -/

/-- The finding about an environment file. -/
def Finding.ofEnvFile (n : String) : Finding where
  ruleId := .text "env-file-committed"
  category := .text "security"
  severity := .text "warning"
  description := .text ("Environment file present and not ignored: " ++ n)
  file := .text n
  line := .null

/-- The findings about environment files. -/
def Survey.envFindings (v : Survey) : List Finding :=
  v.verdict.findings.filter fun f => f.isOf "env-file-committed"

/-- **The findings about environment files are those that the check comes to**, one for each. -/
theorem Survey.envFindings_assemble {m : Material} {o : Options}
    (hrules : m.rules = Rule.table o.disabledRules o.oversizedLines [])
    (hstays : Rule.stays o.disabledRules "env-file-committed" = true) :
    (assemble m).envFindings =
      (ProjectChecks.committed m.context).map Finding.ofEnvFile := by
  obtain ⟨i, hmem, hid, hfinding⟩ : ∃ i : RuleInfo,
      Rule.project i (Rule.always ProjectChecks.envFileCommitted) ∈
          Rule.builtin o.oversizedLines ∧ i.id = "env-file-committed" ∧
        ∀ n, n ≠ "" → i.finding ⟨some n, some n, none⟩ = Finding.ofEnvFile n := by
    refine ⟨_, List.mem_of_getElem? (i := 5) rfl, rfl, fun n hn => ?_⟩
    unfold RuleInfo.finding Finding.ofEnvFile
    dsimp only
    rw [if_neg hn]
    rfl
  have hrule : Rule.project i (Rule.always ProjectChecks.envFileCommitted) ∈ m.rules := by
    rw [hrules, Rule.table_eq_filter]
    refine List.mem_filter.mpr ⟨hmem, ?_⟩
    show Rule.stays o.disabledRules i.id = true
    rwa [hid]
  have hids : (m.rules.map Rule.id).Nodup := by
    rw [hrules]
    exact Engine.nodup_ids_table _ _
  unfold envFindings
  rw [verdict_assemble, ← hid]
  refine (Engine.filter_findings_evaluate hids hrule).trans ?_
  show (ProjectChecks.envFileCommitted m.context).map i.finding = _
  rw [ProjectChecks.envFileCommitted_eq, List.map_map]
  refine List.map_congr_left ?_
  intro n hn
  refine hfinding n ?_
  rintro rfl
  exact absurd (ProjectChecks.mem_committed.mp hn).2.1 (by decide)

namespace Surveyor

variable {s : Surveyor} {w : Workspace} {path : String} {given : Option Options}
  {wishes : Overrides} {survey : Survey} {root : Location} {o : Options}

/-- The settings of the walk take from the options whether the ignore file counts. -/
theorem useGitignore_of_walkSettings {st : WalkSettings} (h : walkSettings o = .ok st) :
    st.useGitignore = o.useGitignore := by
  unfold walkSettings at h
  cases htop : outputTop o.outputDirectory with
  | error f =>
    rw [htop] at h
    cases h
  | ok top =>
    rw [htop] at h
    cases h
    rfl

/-- On a disk without links, a file stays what it is unless another one is put there. -/
theorem readWithin_of_grows {disk disk' : Entry} {files : Location → Prop} (hdisk : disk.IsUnlinked)
    (h : Grows [] files disk disk') {l : Location} (hl : Path.AreNames l) (hfile : ¬ files l)
    (limit : Int) : disk'.readWithin limit l.text = disk.readWithin limit l.text := by
  have hdisk' := h.isUnlinked hdisk
  unfold readWithin
  by_cases hthere : ∃ octets m, disk.at? l = some (file octets m)
  · obtain ⟨octets, m, hat⟩ := hthere
    have hat' := h.at?_of_at? hfile rfl hat
    rw [readOctets_text_eq hl hat hat' (h.reach?_eq_of_at? hat hat')]
  · obtain ⟨f, hread⟩ := readOctets_text_of_none hl (hdisk.isStraight l)
      fun octets m hat => hthere ⟨octets, m, hat⟩
    obtain ⟨f', hread'⟩ := readOctets_text_of_none hl (hdisk'.isStraight l)
      fun octets m hat => hthere ⟨octets, m, (h.at?_eq_some_iff hfile rfl).mp hat⟩
    rw [hread, hread']

/-- Gathering evidence leaves the ignore file what it is. -/
theorem readWithin_ignoreFile {disk disk' : Entry} {time : Int} {sc : Scan}
    {found : Except Failure (Assoc String Evidence)} (hroot : Path.AreNames root)
    (hkept : o.cache = false ∨ disk.IsUnlinked)
    (h : s.evidenceOf disk time o sc = (found, disk')) (limit : Int) :
    disk'.readWithin limit (Path.join root.text Walk.ignoreFile) =
      disk.readWithin limit (Path.join root.text Walk.ignoreFile) := by
  rcases hkept with hcache | hdisk
  · rw [evidenceOf_uncached s disk time hcache] at h
    rw [(Prod.mk.inj h).2]
  · have hplace : Path.AreNames (root ++ [Walk.ignoreFile]) :=
      Path.areNames_append.mpr ⟨hroot, by simpa using Walk.isName_ignoreFile⟩
    have hgrows : Grows [] (fun l => l.getLast? = some "evidence.json") disk
        (s.evidenceOf disk time o sc).2 := by
      refine CommandLine.evidenceOf_grows s time sc fun cache => ?_
      have hpath := (CommandLine.components_cachePath sc.root o).trans
        (List.append_assoc _ ["cache"] _).symm
      refine CommandLine.grows_persist hdisk hpath CommandLine.isName_evidence ?_ cache time
      intro l hl
      rw [hdisk.resolve_eq] at hl
      split at hl
      · cases hl
      · cases hl
        rw [hpath, Location.along_append, Location.along_cons, Location.along_nil,
          Location.step_of_isName _ CommandLine.isName_evidence, List.getLast?_concat]
    rw [h] at hgrows
    rw [Walk.join_text_ignoreFile hroot]
    refine readWithin_of_grows hdisk hgrows hplace ?_ limit
    rw [List.getLast?_concat]
    decide

/-- Whether a file at the root of a project is an environment file. -/
def IsRootEnvFile (disk : Entry) (root : Location) (n : String) : Prop :=
  ProjectChecks.isEnvFile n = true ∧ Walk.HasRootFile disk root n

/-- **One finding comes for each environment file at the root**, but for those that are ignored by a
file that the walk goes by or that is not too large. -/
theorem exists_envFindings (htree : w.disk.IsTree) (hbuiltin : s.rules = none)
    (hroot : ((Work.locateProject path).run w).1 = .ok root)
    (ho : ((options root given wishes).run w).1 = .ok o)
    (hstays : Rule.stays o.disabledRules "env-file-committed" = true)
    (hexclude : o.excludePaths = []) (hkept : o.cache = false ∨ w.disk.IsUnlinked)
    (h : ((s.conduct path given wishes).run w).1 = .ok survey) :
    ∃ names : List String, survey.envFindings = names.map Finding.ofEnvFile ∧
      names.Pairwise (· < ·) ∧ ∀ n, n ∈ names ↔ IsRootEnvFile w.disk root n ∧
        (o.useGitignore = true ∨ ¬ Walk.IsOversized o.maxFileSize w.disk root →
          isIgnored n false (Walk.fileRules w.disk root) = false) := by
  obtain ⟨root', o', sc, found, disk', hroot', -, ho', hsc, hfound, rfl⟩ := conduct_eq_ok_iff.mp h
  cases hroot.symm.trans hroot'
  cases ho.symm.trans ho'
  obtain ⟨st, hst, hscan⟩ := scanOf_eq_ok hsc
  obtain ⟨top, htop, -⟩ := Walk.scan_eq_ok hscan
  have hpatterns : st.excludePatterns = [] := (of_walkSettings hst).2.trans hexclude
  have htext := readWithin_ignoreFile (htree.areNames_of_at? htop).1 hkept hfound o.maxFileSize
  obtain ⟨c, hfiles, hread, hfindings⟩ : ∃ c : ProjectContext, c.rootFiles = sc.rootFiles ∧
      c.ignoreText = disk'.readWithin o.maxFileSize (Path.join root.text Walk.ignoreFile) ∧
      (s.conclusion disk' root o sc (manifestsOf w.disk root sc.rootFiles) found).envFindings =
        (ProjectChecks.committed c).map Finding.ofEnvFile :=
    ⟨_, rfl, rfl, Survey.envFindings_assemble (rulesFor_of_builtin hbuiltin o) hstays⟩
  refine ⟨_, hfindings,
    ProjectChecks.pairwise_committed (hfiles ▸ Walk.nodup_rootFiles hscan htree), fun n => ?_⟩
  rw [← useGitignore_of_walkSettings hst]
  exact ProjectChecks.mem_committed_iff hscan htree hpatterns hfiles (hread.trans htext)

/-- **The ignore file alone decides which environment files are flagged exactly if the walk goes by
it, it is not too large for the rule, or it ignores none of them.** -/
theorem conduct_flags (htree : w.disk.IsTree) (hbuiltin : s.rules = none)
    (hroot : ((Work.locateProject path).run w).1 = .ok root)
    (ho : ((options root given wishes).run w).1 = .ok o)
    (hstays : Rule.stays o.disabledRules "env-file-committed" = true)
    (hexclude : o.excludePaths = []) (hkept : o.cache = false ∨ w.disk.IsUnlinked)
    (h : ((s.conduct path given wishes).run w).1 = .ok survey) :
    ∃ names : List String, survey.envFindings = names.map Finding.ofEnvFile ∧
      names.Pairwise (· < ·) ∧
      (∀ n, n ∈ names ↔ IsRootEnvFile w.disk root n ∧
        (o.useGitignore = true ∨ ¬ Walk.IsOversized o.maxFileSize w.disk root →
          isIgnored n false (Walk.fileRules w.disk root) = false)) ∧
      ((∀ n, n ∈ names ↔ IsRootEnvFile w.disk root n ∧
          isIgnored n false (Walk.fileRules w.disk root) = false) ↔
        o.useGitignore = true ∨ ¬ Walk.IsOversized o.maxFileSize w.disk root ∨
          ∀ n, IsRootEnvFile w.disk root n →
            isIgnored n false (Walk.fileRules w.disk root) = false) := by
  obtain ⟨names, hfindings, hsorted, hmem⟩ :=
    exists_envFindings htree hbuiltin hroot ho hstays hexclude hkept h
  refine ⟨names, hfindings, hsorted, hmem, ?_, ?_⟩
  · intro halone
    by_cases hread : o.useGitignore = true ∨ ¬ Walk.IsOversized o.maxFileSize w.disk root
    · exact or_assoc.mp (.inl hread)
    · refine .inr (.inr fun n hn => ?_)
      exact ((halone n).mp ((hmem n).mpr ⟨hn, fun h => absurd h hread⟩)).2
  · intro hone n
    rw [hmem n]
    refine and_congr_right fun hn => ?_
    rcases or_assoc.mpr hone with hread | hnone
    · exact imp_iff_right hread
    · exact iff_of_true (fun _ => hnone n hn) (hnone n hn)

/-! ### A file that is ignored -/

/-- A project with two environment files, one of which is ignored. -/
def envProject : Entry :=
  .ofEntries [(".env", .file [] 7), (".env.local", .file [] 7),
    (".gitignore", .file (Text.Utf8.encode ".env\n".toList) 7)]

/-- A disk with the project. -/
def envDisk : Entry := .ofEntries [("p", envProject)]

/-- A workspace with the disk. -/
def envWorkspace : Workspace := ⟨envDisk, [], [], 0, [], []⟩

/-- The usual options but for whether the walk goes by the ignore file and how large a file may be.
-/
def envOptions (use : Bool) (limit : Int) : Options :=
  { Options.default with useGitignore := use, maxFileSize := limit }

/-- Everything on the disk of the example can be read. -/
theorem isReadable_envDisk : IsReadable envDisk ["p"] envProject := by
  refine ⟨isTree_singleton (by decide) (isTree_directory.mpr ⟨by decide, ?_⟩), rfl, rfl, rfl⟩
  simp only [List.forall_mem_cons]
  exact ⟨⟨by decide, trivial⟩, ⟨by decide, trivial⟩, ⟨by decide, trivial⟩, by simp⟩

/-- The project of the example is found. -/
theorem locateProject_envWorkspace :
    ((Work.locateProject "/p").run envWorkspace).1 = .ok ["p"] := by decide

/-- The options of its run are the given ones. -/
theorem options_envWorkspace (use : Bool) (limit : Int) :
    ((options ["p"] (some (envOptions use limit)) Overrides.none).run envWorkspace).1 =
      .ok (envOptions use limit) := by
  have hoverride : ∀ o : Options,
      { o with useGitignore := use, maxFileSize := limit }.override? Overrides.none =
        (o.override? Overrides.none).map fun o =>
          { o with useGitignore := use, maxFileSize := limit } := by
    intro o
    unfold Options.override?
    split <;> rfl
  unfold options
  dsimp only
  rw [pure_bind, envOptions, hoverride, override?_default]
  rfl

/-- The project has a survey under each of these options. -/
theorem exists_conduct_envDisk (use : Bool) (limit : Int) :
    ∃ survey, ((usual.conduct "/p" (some (envOptions use limit)) Overrides.none).run
      envWorkspace).1 = .ok survey := by
  obtain ⟨st, hst⟩ := (walkSettings_isOk_iff (envOptions use limit)).mpr
    (.inr (.inr (by show Path.components Options.default.outputDirectory ≠ []; decide)))
  have hdepth : st.maxDepth = 4 := (of_walkSettings hst).1
  obtain ⟨sc, hsc⟩ := (Walk.scan_isOk_iff isReadable_envDisk.isTree
      (isReadable_envDisk.startsAt usual st) (by show 1 ≤ st.maxDepth; omega)).mpr
    fun dirs hreaches => by
      have hlength : (dirs.length : Int) ≤ st.maxDepth - 1 := hreaches.depth
      unfold Walk.levelLimit
      omega
  rw [scan_scopeOf] at hsc
  have hscan : usual.scanOf envDisk ["p"] (envOptions use limit) = .ok sc := by
    unfold scanOf
    rw [hst]
    exact hsc
  have hsigned := usual.isSome_signatureOf?_of_lt (o := envOptions use limit)
    (show Options.default.oversizedLines.natAbs < 100000000 by decide)
  have hfound := evidenceOf_uncached usual envDisk 0 (o := envOptions use limit) rfl sc
  rw [if_pos hsigned] at hfound
  exact ⟨_, conduct_eq_ok_iff.mpr ⟨["p"], _, sc, _, _, locateProject_envWorkspace,
    isReadable_envDisk.check, options_envWorkspace use limit, hscan, hfound, rfl⟩⟩

/-- Environment files are told apart by their findings. -/
theorem ofEnvFile_injective : Function.Injective Finding.ofEnvFile :=
  fun _ _ h => Datum.text.inj (congrArg Finding.file h)

/-- There is an environment file at the root of the example. -/
theorem isRootEnvFile_env : IsRootEnvFile envDisk ["p"] ".env" :=
  ⟨by decide, ⟨⟨_, rfl, rfl⟩, by decide⟩⟩

/-- Its ignore file names it. -/
theorem isIgnored_env : isIgnored ".env" false (Walk.fileRules envDisk ["p"]) = true := by
  decide

/-- Where the walk goes by the ignore file, only the other file is flagged. -/
theorem conduct_flags_envDisk :
    envWorkspace.disk.IsTree ∧ usual.rules = none ∧
      Rule.stays (envOptions true 0).disabledRules "env-file-committed" = true ∧
      (envOptions true 0).excludePaths = [] ∧ (envOptions true 0).cache = false ∧
      ∃ survey, ((usual.conduct "/p" (some (envOptions true 0)) Overrides.none).run
          envWorkspace).1 = .ok survey ∧
        Finding.ofEnvFile ".env" ∉ survey.envFindings ∧
        Finding.ofEnvFile ".env.local" ∈ survey.envFindings := by
  obtain ⟨survey, hsurvey⟩ := exists_conduct_envDisk true 0
  have hstays : Rule.stays (envOptions true 0).disabledRules "env-file-committed" = true := by
    decide
  obtain ⟨names, hfindings, -, -, halone⟩ := conduct_flags isReadable_envDisk.isTree rfl
    locateProject_envWorkspace (options_envWorkspace true 0) hstays rfl (.inl rfl) hsurvey
  have hmem := halone.mpr (.inl rfl)
  refine ⟨isReadable_envDisk.isTree, rfl, hstays, rfl, rfl, survey, hsurvey, ?_, ?_⟩
  · rw [hfindings, List.mem_map_of_injective ofEnvFile_injective, hmem]
    exact fun h => Bool.noConfusion (isIgnored_env.symm.trans h.2)
  · rw [hfindings, List.mem_map_of_injective ofEnvFile_injective, hmem]
    exact ⟨⟨by decide, ⟨⟨_, rfl, rfl⟩, by decide⟩⟩, by decide⟩

/-- **A file that is ignored is flagged nevertheless**, where the ignore file is kept from the walk
and too large for the rule. -/
theorem conduct_flags_ignored :
    ∃ survey, ((usual.conduct "/p" (some (envOptions false 0)) Overrides.none).run
        envWorkspace).1 = .ok survey ∧
      isIgnored ".env" false (Walk.fileRules envDisk ["p"]) = true ∧
      Finding.ofEnvFile ".env" ∈ survey.envFindings := by
  obtain ⟨survey, hsurvey⟩ := exists_conduct_envDisk false 0
  obtain ⟨names, hfindings, -, hmem⟩ := exists_envFindings isReadable_envDisk.isTree rfl
    locateProject_envWorkspace (options_envWorkspace false 0) (by decide) rfl (.inl rfl)
    hsurvey
  have hlarge : Walk.IsOversized (envOptions false 0).maxFileSize envDisk ["p"] :=
    ⟨Text.Utf8.encode ".env\n".toList, by decide, by decide⟩
  refine ⟨survey, hsurvey, isIgnored_env, ?_⟩
  rw [hfindings, List.mem_map_of_injective ofEnvFile_injective, hmem]
  refine ⟨isRootEnvFile_env, ?_⟩
  rintro (huse | hsmall)
  · cases huse
  · exact absurd hlarge hsmall

end Surveyor

end ProjectSurvey
