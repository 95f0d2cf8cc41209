import ProjectSurvey.Proofs.Evidence.Signature
import ProjectSurvey.Proofs.Scoring

/-!
# Which rules have findings, and in which files

A verdict holds what its rules find and nothing else (`Engine.mem_findings_evaluate`). Two things
follow for the built-in rules.

* **A finding that names a file names one that was there to be looked at**
  (`Engine.file_of_mem_findings`): a content rule the file of the evidence, a project rule a file at
  the root. Only two project rules name files at all.
* **A project rule is among the findings exactly if its check sees something**
  (`Engine.exists_finding_iff`), since no two rules have the same name. It takes a rule that is not
  disabled.
-/

namespace ProjectSurvey

namespace ProjectChecks

variable {c : ProjectContext} {s : Sighting}

/-! ### The files that checks name -/

/-- Whether nothing of what was seen is in a file. -/
def NoFile (sightings : List Sighting) : Prop := ∀ s ∈ sightings, s.file = none

/-- Nothing seen names no file, -/
theorem noFile_nil : NoFile [] := nofun

/-- something seen names none by itself, -/
theorem noFile_bare : NoFile [bare] := List.forall_mem_singleton.mpr rfl

/-- nor does a detail add one, -/
theorem noFile_detailed (d : String) : NoFile [detailed d] := List.forall_mem_singleton.mpr rfl

/-- and either of two may be seen. -/
theorem NoFile.ite {p : Prop} [Decidable p] {xs ys : List Sighting} (hx : NoFile xs)
    (hy : NoFile ys) :
    NoFile (if p then xs else ys) := by
  split
  · exact hx
  · exact hy

/-- Six checks are about the project alone. -/
theorem noFile_of_mem {check : ProjectContext → List Sighting}
    (h : check ∈ [missingDocumentation, missingTests, missingLockfile, missingGitignore,
      highComplexity, missingSecurityMiddleware]) (c : ProjectContext) : NoFile (check c) := by
  simp only [List.mem_cons, List.not_mem_nil, or_false] at h
  rcases h with rfl | rfl | rfl | rfl | rfl | rfl
  · exact noFile_nil.ite noFile_bare
  · exact noFile_nil.ite (noFile_nil.ite noFile_bare)
  · exact noFile_nil.ite (noFile_detailed _)
  · exact noFile_nil.ite noFile_bare
  · exact (noFile_detailed _).ite noFile_nil
  · exact noFile_nil.ite (noFile_detailed _)

/-- An environment file is one at the root. -/
theorem file_of_mem_envFileCommitted (hs : s ∈ envFileCommitted c) :
    ∃ n ∈ c.rootFiles, s.file = some n := by
  unfold envFileCommitted at hs
  obtain ⟨n, hn, rfl⟩ := List.mem_map.mp hs
  have hcandidate := Text.mem_sorted.mp (List.mem_filter.mp hn).1
  exact ⟨n, (List.mem_filter.mp hcandidate).1, rfl⟩

/-- A version that is too old is read in a manifest. -/
theorem file_of_vulnerability {manifest name declared : String}
    (h : vulnerability c manifest name declared = some (some s)) : s.file = some manifest := by
  unfold vulnerability at h
  split at h
  · cases h
  · split at h
    · cases h
    · cases h
    · split at h
      · split at h
        · cases h
          rfl
        · cases h
      · cases h

/-- The results of a step over some items come from the items. -/
theorem exists_of_mem_mapM {α β : Type} {f : α → Option β} {items : List α} {results : List β}
    (h : items.mapM f = some results) {b : β} (hb : b ∈ results) : ∃ a ∈ items, f a = some b := by
  induction items generalizing results with
  | nil =>
    cases h
    contradiction
  | cons a rest ih =>
    rw [List.mapM_cons, Option.bind_eq_bind, Option.bind_eq_some_iff] at h
    obtain ⟨b₀, hb₀, h⟩ := h
    rw [Option.bind_eq_bind, Option.bind_eq_some_iff] at h
    obtain ⟨more, hmore, h⟩ := h
    cases h
    rcases List.mem_cons.mp hb with rfl | hmem
    · exact ⟨a, List.mem_cons_self, hb₀⟩
    · obtain ⟨a', ha', hfa'⟩ := ih hmore hmem
      exact ⟨a', List.mem_cons_of_mem a ha', hfa'⟩

/-- A package that is seen as vulnerable is seen in one of the manifests. -/
theorem file_of_mem_vulnerableDependency {sightings : List Sighting}
    (h : vulnerableDependency c = some sightings) (hs : s ∈ sightings) :
    ∃ n ∈ Assoc.keys c.manifests, s.file = some n := by
  unfold vulnerableDependency at h
  dsimp only at h
  obtain ⟨found, hfound, rfl⟩ := Option.map_eq_some_iff.mp h
  obtain ⟨o, ho, rfl⟩ := List.mem_filterMap.mp hs
  obtain ⟨⟨manifest, name, declared⟩, hmem, hvulnerable⟩ := exists_of_mem_mapM hfound ho
  obtain ⟨p, hp, hdeclared⟩ := List.mem_flatMap.mp hmem
  obtain ⟨q, -, heq⟩ := List.mem_map.mp hdeclared
  cases heq
  exact ⟨p.1, List.mem_map_of_mem (List.mem_mergeSort.mp hp), file_of_vulnerability hvulnerable⟩

/-- **A built-in project rule names files at the root only**, of which the manifests are some. -/
theorem file_of_builtin {oversizedLines : Int} {i : RuleInfo}
    {check : ProjectContext → Option (List Sighting)}
    (hrule : Rule.project i check ∈ Rule.builtin oversizedLines)
    (hmanifests : Assoc.keys c.manifests ⊆ c.rootFiles) {sightings : List Sighting}
    (h : check c = some sightings) (hs : s ∈ sightings) {n : String} (hn : s.file = some n) :
    n ∈ c.rootFiles := by
  have halways : ∀ {check' : ProjectContext → List Sighting}, NoFile (check' c) →
      Rule.always check' c = some sightings → n ∈ c.rootFiles := by
    intro check' hnone heq
    rw [Rule.always, Option.some_inj] at heq
    rw [hnone s (heq ▸ hs)] at hn
    cases hn
  simp only [Rule.builtin, List.mem_cons, Rule.project.injEq, reduceCtorEq, List.not_mem_nil,
    or_false] at hrule
  rcases hrule with ⟨-, rfl⟩ | ⟨-, rfl⟩ | ⟨-, rfl⟩ | ⟨-, rfl⟩ | ⟨-, rfl⟩ | ⟨-, rfl⟩ | ⟨-, rfl⟩ |
    ⟨-, rfl⟩
  · exact halways (noFile_of_mem (by simp) c) h
  · exact halways (noFile_of_mem (by simp) c) h
  · exact halways (noFile_of_mem (by simp) c) h
  · exact halways (noFile_of_mem (by simp) c) h
  · exact halways (noFile_of_mem (by simp) c) h
  · rw [Rule.always, Option.some_inj] at h
    obtain ⟨n', hn', hfile⟩ := file_of_mem_envFileCommitted (h ▸ hs)
    cases hfile.symm.trans hn
    exact hn'
  · exact halways (noFile_of_mem (by simp) c) h
  · obtain ⟨n', hn', hfile⟩ := file_of_mem_vulnerableDependency h hs
    cases hfile.symm.trans hn
    exact hmanifests hn'

/-! ### What two checks see -/

/-- The rule for complexity sees something exactly when the complexity is high. -/
theorem highComplexity_ne_nil_iff : highComplexity c ≠ [] ↔ c.metrics.complexity = .high := by
  unfold highComplexity
  split
  · next h => simp [h]
  · next h => simp [h]

/-- The rule for middleware sees something where a server framework is used without any of the
packages that secure it. -/
theorem missingSecurityMiddleware_ne_nil_iff : missingSecurityMiddleware c ≠ [] ↔
    (∃ n ∈ c.profile.frameworks, n ∈ Tables.serverFrameworks) ∧
      ∀ p ∈ c.tables.securityPackages, p ∉ c.packages := by
  have hservers : (c.profile.frameworks.filter Tables.serverFrameworks.contains).isEmpty = false ↔
      ∃ n ∈ c.profile.frameworks, n ∈ Tables.serverFrameworks := by
    simp
  have hpackages : (c.tables.securityPackages.any fun p => c.packages.contains p) = false ↔
      ∀ p ∈ c.tables.securityPackages, p ∉ c.packages := by simp
  rw [← hservers, ← hpackages, ← Bool.or_eq_false_iff, ← Bool.not_eq_true]
  unfold missingSecurityMiddleware
  dsimp only
  split
  · next h => exact iff_of_false (fun hne => hne rfl) fun hnot => hnot h
  · next h => exact iff_of_true (List.cons_ne_nil _ _) h

end ProjectChecks

namespace Engine

variable {rules : List Rule} {c : ProjectContext} {evidence : Assoc String Evidence} {f : Finding}

/-! ### What a verdict holds -/

/-- The findings of a verdict are those of its rules, one rule after the other. -/
theorem findings_evaluate (rules : List Rule) (c : ProjectContext)
    (evidence : Assoc String Evidence) : (evaluate rules c evidence).findings =
      rules.flatMap (findingsOf c (contentFindings evidence)) := by
  unfold evaluate
  dsimp only
  induction rules with
  | nil => rfl
  | cons r rest ih =>
    rw [List.map_cons, List.filter_cons, List.flatMap_cons, ← ih]
    -- a rule that finds nothing adds nothing
    cases findingsOf c (contentFindings evidence) r <;> simp

/-- **The findings of a verdict are those of its rules.** -/
theorem mem_findings_evaluate : f ∈ (evaluate rules c evidence).findings ↔
    ∃ r ∈ rules, f ∈ findingsOf c (contentFindings evidence) r := by
  rw [findings_evaluate, List.mem_flatMap]

/-- What a rule finds bears its name. -/
theorem ruleId_of_mem_findingsOf {inFiles : List Finding} {r : Rule}
    (hf : f ∈ findingsOf c inFiles r) : f.ruleId = .text r.id := by
  unfold findingsOf at hf
  split at hf
  · have hof : f.ruleId.equalsText r.id = true := (List.mem_filter.mp hf).2
    unfold Datum.equalsText at hof
    split at hof
    · next heq => rw [heq, beq_iff_eq.mp hof]
    · cases hof
  · cases r with
    | content i languages skips check => contradiction
    | project i check =>
      obtain ⟨s, -, rfl⟩ := List.mem_map.mp hf
      rfl

/-- **What bears the name of a rule in a verdict is what the rule finds**, in its order. -/
theorem filter_findings_evaluate (hids : (rules.map Rule.id).Nodup) {r : Rule} (hr : r ∈ rules) :
    (evaluate rules c evidence).findings.filter (fun f => f.isOf r.id) =
      findingsOf c (contentFindings evidence) r := by
  have hnamed : ∀ r' : Rule, ∀ f ∈ findingsOf c (contentFindings evidence) r',
      f.isOf r.id = (r'.id == r.id) := by
    intro r' f hf
    unfold Finding.isOf
    rw [ruleId_of_mem_findingsOf hf]
    rfl
  rw [findings_evaluate]
  refine Sorting.filter_flatMap_of_nodup Rule.id _ _ hids hr ?_ ?_
  · intro f hf
    rw [hnamed r f hf, beq_self_eq_true]
  · intro r' _ hne f hf
    rw [hnamed r' f hf, beq_eq_false_iff_ne.mpr hne]

/-- **A project rule is among the findings exactly if its check sees something.** -/
theorem exists_finding_iff (hids : (rules.map Rule.id).Nodup) {i : RuleInfo}
    {check : ProjectContext → Option (List Sighting)} (hrule : Rule.project i check ∈ rules) :
    (∃ f ∈ (evaluate rules c evidence).findings, f.ruleId = .text i.id) ↔
      (check c).getD [] ≠ [] := by
  constructor
  · rintro ⟨f, hf, hid⟩
    obtain ⟨r, hr, hf⟩ := mem_findings_evaluate.mp hf
    have hsame : r.id = (Rule.project i check).id :=
      Datum.text.inj ((ruleId_of_mem_findingsOf hf).symm.trans hid)
    rw [List.inj_on_of_nodup_map hids hr hrule hsame] at hf
    obtain ⟨s, hs, -⟩ := List.mem_map.mp hf
    exact List.ne_nil_of_mem hs
  · intro hsees
    obtain ⟨s, hs⟩ := List.exists_mem_of_ne_nil _ hsees
    exact ⟨i.finding s, mem_findings_evaluate.mpr ⟨_, hrule, List.mem_map_of_mem hs⟩, rfl⟩

/-! ### The table of a run -/

/-- The rules of the table have distinct names. -/
theorem nodup_ids_table (disabled : List String) (oversizedLines : Int) :
    ((Rule.table disabled oversizedLines []).map Rule.id).Nodup := by
  have hkeys := Rule.nodup_keys_builtin oversizedLines
  have hids : ((Rule.builtin oversizedLines).map Rule.id).Nodup :=
    List.Nodup.of_map Text.lowered (by rwa [List.map_map])
  rw [Rule.table_eq_filter]
  exact hids.sublist (List.filter_sublist.map _)

variable {disabled : List String} {oversizedLines : Int}

/-- A built-in project rule is among the findings exactly if it is not disabled and its check sees
something. -/
theorem exists_finding_table_iff {i : RuleInfo}
    {check : ProjectContext → Option (List Sighting)}
    (hrule : Rule.project i check ∈ Rule.builtin oversizedLines) :
    (∃ f ∈ (evaluate (Rule.table disabled oversizedLines []) c evidence).findings,
        f.ruleId = .text i.id) ↔
      Rule.stays disabled i.id = true ∧ (check c).getD [] ≠ [] := by
  by_cases hstays : Rule.stays disabled i.id = true
  · have hmem : Rule.project i check ∈ Rule.table disabled oversizedLines [] := by
      rw [Rule.table_eq_filter]
      exact List.mem_filter.mpr ⟨hrule, hstays⟩
    rw [exists_finding_iff (nodup_ids_table disabled oversizedLines) hmem, and_iff_right hstays]
  · constructor
    · rintro ⟨f, hf, hid⟩
      obtain ⟨r, hr, hf⟩ := mem_findings_evaluate.mp hf
      rw [Rule.table_eq_filter] at hr
      have hsame : r.id = i.id := Datum.text.inj ((ruleId_of_mem_findingsOf hf).symm.trans hid)
      have hkept : Rule.stays disabled r.id = true := (List.mem_filter.mp hr).2
      exact absurd (hsame ▸ hkept) hstays
    · exact fun h => absurd h.1 hstays

/-- The evidence of some files names them. -/
theorem file_of_mem_contentFindings {files : List ReadFile}
    (hf : f ∈ contentFindings (ReadFile.evidence rules files)) :
    ∃ x ∈ files, f.file = .text x.path := by
  obtain ⟨⟨path, e⟩, he, hf⟩ := List.mem_flatMap.mp hf
  obtain ⟨x, hx, heq⟩ := List.mem_map.mp (List.mem_mergeSort.mp he)
  cases heq
  dsimp only at hf
  rw [findings_ofText] at hf
  obtain ⟨r, -, hr⟩ := List.mem_filterMap.mp hf
  exact ⟨x, hx, Rule.file_of_observationIn? hr⟩

/-- **What a built-in rule finds in a file is in one that was looked at or in one at the root.** -/
theorem file_of_mem_findings {files : List ReadFile}
    (hmanifests : Assoc.keys c.manifests ⊆ c.rootFiles)
    (hf : f ∈ (evaluate (Rule.table disabled oversizedLines []) c
      (ReadFile.evidence rules files)).findings) (hfile : f.file ≠ .null) :
    ∃ n, f.file = .text n ∧ (n ∈ files.map ReadFile.path ∨ n ∈ c.rootFiles) := by
  obtain ⟨r, hr, hf⟩ := mem_findings_evaluate.mp hf
  rw [Rule.table_eq_filter] at hr
  have hbuiltin := (List.mem_filter.mp hr).1
  cases r with
  | content i languages skips check =>
    obtain ⟨x, hx, hpath⟩ := file_of_mem_contentFindings (List.mem_filter.mp hf).1
    exact ⟨x.path, hpath, .inl (List.mem_map_of_mem hx)⟩
  | project i check =>
    obtain ⟨s, hs, rfl⟩ := List.mem_map.mp hf
    cases hchecked : check c with
    | none =>
      rw [hchecked] at hs
      contradiction
    | some sightings =>
      rw [hchecked] at hs
      cases hname : s.file with
      | none => exact absurd (congrArg Datum.ofText? hname) hfile
      | some n =>
        exact ⟨n, congrArg Datum.ofText? hname,
          .inr (ProjectChecks.file_of_builtin hbuiltin hmanifests hchecked hs hname)⟩

end Engine

end ProjectSurvey
