import ProjectSurvey.Proofs.Sorting
import ProjectSurvey.DirectoryTree
import ProjectSurvey.Survey.Evidence

/-!
# What a verdict is made of

The findings of content rules travel through the evidence of single files and are put together again
by the name of the rule; those of project rules are made on the spot. **Nothing is lost and nothing
is invented on the way**: with rules of different names, the findings of a verdict are, rule by rule
in the order of the table, exactly what each rule observed (`evaluate_accounts`).

`Rule.observations` says what a rule observes, without the engine: one observation per sighting of a
project rule, and at most one per file of a content rule, the files in the order of their paths. A
check that breaks down observes nothing and is otherwise of no account (`evaluate_unfailing`).
-/

namespace ProjectSurvey

/-- A file and the text that was read of it, if any was. -/
abbrev ReadFile := FileRecord × Option (List Char)

namespace ReadFile

/-- Where the file is. -/
def path (f : ReadFile) : String := f.1.path

/-- The evidence of some files. -/
def evidence (rules : List Rule) (files : List ReadFile) : Assoc String Evidence :=
  files.map fun f => (f.path, Evidence.ofText rules f.1 f.2)

end ReadFile

namespace Rule

/-! ### What a rule observes -/

/-- What a content rule sees in a file: what its check sees in the text, if the file is in one of
the languages of the rule and is no test that the rule skips. -/
inductive Sees : Rule → ReadFile → Finding → Prop where
  /-- The check saw something. -/
  | sees {i : RuleInfo} {languages : List String} {skips : Bool} {check : List Char → Outcome}
      {r : FileRecord} {text : List Char} {s : Sighting} :
      (languages = [] ∨ r.language ∈ languages) → ¬ (skips = true ∧ "test" ∈ r.kind.purposeTags) →
      check text = .seen s →
      Sees (.content i languages skips check) (r, some text) (i.finding { s with file := r.path })

/-- The one observation of a content rule in a file, if it makes one. -/
def observationIn? (f : ReadFile) (r : Rule) : Option Finding :=
  f.2.bind fun text => if r.appliesTo f.1 then r.findingIn? f.path text else none

/-- The observations of a rule: of a project rule one per sighting, of a content rule those in the
given files, in their order. -/
def observations (context : ProjectContext) (files : List ReadFile) : Rule → List Finding
  | project i check => ((check context).getD []).map i.finding
  | content i languages skips check =>
    files.filterMap fun f => (content i languages skips check).observationIn? f

/-- The observation in a file is what the rule sees there. -/
theorem observationIn?_eq_some_iff (r : Rule) (f : ReadFile) (o : Finding) :
    r.observationIn? f = some o ↔ r.Sees f o := by
  obtain ⟨record, text⟩ := f
  constructor
  · intro h
    unfold observationIn? at h
    rcases text with _ | text
    · contradiction
    rw [Option.bind_some] at h
    split at h
    · next happlies =>
      rcases r with ⟨i, languages, skips, check⟩ | ⟨i, check⟩
      · simp only [findingIn?] at h
        split at h
        · next s hseen =>
          obtain rfl := Option.some.inj h
          simp only [appliesTo, speaks, FileKind.isTest, Bool.and_eq_true, Bool.or_eq_true,
            Bool.not_eq_true', List.isEmpty_iff, List.contains_iff_mem, Bool.and_eq_false_iff]
            at happlies
          obtain ⟨hlang, htest⟩ := happlies
          refine Sees.sees hlang ?_ hseen
          rintro ⟨hskips, hmem⟩
          rcases htest with hno | hno
          · rw [hskips] at hno
            contradiction
          · rw [List.contains_iff_mem.mpr hmem] at hno
            contradiction
        · contradiction
      · contradiction
    · contradiction
  · intro h
    cases h with
    | @sees i languages skips check _ text s hlang htest hseen =>
      have happlies : (content i languages skips check).appliesTo record = true := by
        simp only [appliesTo, speaks, FileKind.isTest, Bool.and_eq_true, Bool.or_eq_true,
          Bool.not_eq_true', List.isEmpty_iff, List.contains_iff_mem]
        refine ⟨hlang, ?_⟩
        rw [Bool.eq_false_iff]
        intro hboth
        rw [Bool.and_eq_true, List.contains_iff_mem] at hboth
        exact htest hboth
      simp [observationIn?, happlies, findingIn?, hseen, ReadFile.path]

/-- What a content rule observes bears its name. -/
theorem isOf_of_observationIn? {r : Rule} {f : ReadFile} {o : Finding}
    (h : r.observationIn? f = some o) (id : String) : o.isOf id = (r.id == id) := by
  rw [observationIn?_eq_some_iff] at h
  cases h
  rfl

/-- What a content rule observes in a file says so. -/
theorem file_of_observationIn? {r : Rule} {f : ReadFile} {o : Finding}
    (h : r.observationIn? f = some o) : o.file = .text f.path := by
  rw [observationIn?_eq_some_iff] at h
  cases h
  rfl

/-- A project rule observes nothing in a file. -/
theorem observationIn?_project (i : RuleInfo) (check : ProjectContext → Option (List Sighting))
    (f : ReadFile) : (project i check).observationIn? f = none := by
  unfold observationIn?
  cases f.2 <;> simp [findingIn?]

end Rule

namespace Engine

/-! ### From the evidence back to the rules -/

/-- The findings in the evidence of a file, rule by rule. -/
theorem findings_ofText (rules : List Rule) (f : ReadFile) :
    (Evidence.ofText rules f.1 f.2).findings = rules.filterMap fun r => r.observationIn? f := by
  obtain ⟨record, text⟩ := f
  rcases text with _ | text
  · simp [Evidence.ofText, Rule.observationIn?]
  · simp only [Evidence.ofText, scanContent, List.filterMap_filter]
    rfl

/-- Among the observations in a file, those of one name are the observation of the rule of that
name. -/
theorem filter_isOf_observations {rules : List Rule} (hids : (rules.map Rule.id).Nodup)
    (f : ReadFile) {r : Rule} (hr : r ∈ rules) :
    (rules.filterMap fun r => r.observationIn? f).filter (fun o => o.isOf r.id) =
      (r.observationIn? f).toList := by
  rw [List.filterMap_eq_flatMap_toList]
  refine Sorting.filter_flatMap_of_nodup Rule.id _ _ hids hr ?_ ?_
  · intro o ho
    rw [Rule.isOf_of_observationIn? (Option.mem_toList.mp ho), beq_self_eq_true]
  · intro r' _ hne o ho
    rw [Rule.isOf_of_observationIn? (Option.mem_toList.mp ho)]
    exact beq_false_of_ne hne

variable {rules : List Rule} {files ordered : List ReadFile}

/-- The findings in all evidence are those file by file, in the order of the paths. -/
theorem contentFindings_evidence (hperm : ordered.Perm files)
    (hstrict : ordered.Pairwise fun a b => a.path < b.path) :
    contentFindings (ReadFile.evidence rules files) =
      ordered.flatMap fun f => rules.filterMap fun r => r.observationIn? f := by
  have hsorted : (ReadFile.evidence rules files).mergeSort (fun a b => decide (a.1 ≤ b.1)) =
      ReadFile.evidence rules ordered := by
    refine Sorting.mergeSort_eq_of_perm Prod.fst (hperm.map _) ?_
    rw [ReadFile.evidence, List.pairwise_map]
    exact hstrict
  rw [contentFindings, hsorted, ReadFile.evidence, List.flatMap_map]
  simp only [findings_ofText]

/-- What the engine takes for the findings of a rule is what the rule observed. -/
theorem findingsOf_evidence (context : ProjectContext) (hids : (rules.map Rule.id).Nodup)
    (hperm : ordered.Perm files) (hstrict : ordered.Pairwise fun a b => a.path < b.path)
    {r : Rule} (hr : r ∈ rules) :
    findingsOf context (contentFindings (ReadFile.evidence rules files)) r =
      r.observations context ordered := by
  rw [contentFindings_evidence hperm hstrict]
  rcases r with ⟨i, languages, skips, check⟩ | ⟨i, check⟩
  · simp only [findingsOf, Rule.isContent, if_true, Rule.observations, List.filter_flatMap]
    rw [List.filterMap_eq_flatMap_toList]
    refine List.flatMap_congr fun f _ => ?_
    exact filter_isOf_observations hids f hr
  · rfl

/-! ### The verdict -/

/-- The rules that observed something. -/
def triggered (rules : List Rule) (context : ProjectContext) (files : List ReadFile) : List Rule :=
  rules.filter fun r => !(r.observations context files).isEmpty

/-- Leaving out the rules without observations leaves out no observation. -/
theorem flatMap_triggered (rules : List Rule) (context : ProjectContext) (files : List ReadFile) :
    (triggered rules context files).flatMap (fun r => r.observations context files) =
      rules.flatMap fun r => r.observations context files := by
  induction rules with
  | nil => rfl
  | cons r rest ih =>
    rw [triggered] at ih ⊢
    rw [List.filter_cons, List.flatMap_cons]
    split
    · rw [List.flatMap_cons, ih]
    · next hempty =>
      have hnone : r.observations context files = [] := by simpa using hempty
      rw [ih, hnone, List.nil_append]

/-- The verdict, said through what the rules observed. -/
theorem evaluate_eq (context : ProjectContext) (hids : (rules.map Rule.id).Nodup)
    (hperm : ordered.Perm files) (hstrict : ordered.Pairwise fun a b => a.path < b.path) :
    evaluate rules context (ReadFile.evidence rules files) =
      { score := clampScore
          (100 - ((triggered rules context ordered).map fun r => r.info.penalty).sum)
        findings := rules.flatMap fun r => r.observations context ordered
        suggestions :=
          Text.distinct ((triggered rules context ordered).map fun r => r.info.suggestion) } := by
  have hpairs : (rules.map fun r =>
        (r, findingsOf context (contentFindings (ReadFile.evidence rules files)) r)) =
      rules.map fun r => (r, r.observations context ordered) :=
    List.map_congr_left fun r hr => by rw [findingsOf_evidence context hids hperm hstrict hr]
  have hfilter : ((rules.map fun r => (r, r.observations context ordered)).filter
        fun p => !p.2.isEmpty) =
      (triggered rules context ordered).map fun r => (r, r.observations context ordered) := by
    rw [List.filter_map]
    rfl
  simp only [evaluate]
  rw [hpairs, hfilter]
  simp only [List.map_map, List.flatMap_map, flatMap_triggered]
  rfl

/-- The score under the letter of the rule: each rule that observed something costs its penalty
once, and the result is brought between 0 and 100. -/
def scoreOf (groups : List (Rule × List Finding)) : Int :=
  max 0 (min 100 (100 - ((groups.filter fun g => g.2 ≠ []).map fun g => g.1.info.penalty).sum))

/-- What a verdict accounts for: its findings in one group per rule, in the order of the table. -/
structure Accounts (rules : List Rule) (context : ProjectContext) (files : List ReadFile)
    (v : Verdict) (groups : List (Rule × List Finding)) : Prop where
  /-- There is one group per rule. -/
  rules_eq : groups.map Prod.fst = rules
  /-- The groups make up the findings. -/
  findings_eq : v.findings = groups.flatMap Prod.snd
  /-- A project rule has one finding per match, and none if its check breaks down. -/
  project : ∀ i check fs, (Rule.project i check, fs) ∈ groups →
    fs = match check context with
      | some sightings => sightings.map i.finding
      | none => []
  /-- A content rule has the findings that it sees in the files. -/
  content : ∀ i languages skips check fs, (Rule.content i languages skips check, fs) ∈ groups →
    ∀ o, o ∈ fs ↔ ∃ f ∈ files, (Rule.content i languages skips check).Sees f o
  /-- The findings of a content rule go from path to path, and no path comes twice. -/
  increasing : ∀ i languages skips check fs, (Rule.content i languages skips check, fs) ∈ groups →
    fs.Pairwise fun a b => ∃ p q, a.file = .text p ∧ b.file = .text q ∧ p < q
  /-- The score counts each group that is not empty once. -/
  score_eq : v.score = scoreOf groups
  /-- The suggestions are those of the groups that are not empty, each once. -/
  suggestions_eq :
    v.suggestions = ((groups.filter fun g => g.2 ≠ []).map fun g => g.1.info.suggestion).eraseDups

/-- The groups of what the rules observed in files in strict order. -/
theorem accounts_observations (context : ProjectContext) (hids : (rules.map Rule.id).Nodup)
    (hperm : ordered.Perm files) (hstrict : ordered.Pairwise fun a b => a.path < b.path) :
    Accounts rules context files (evaluate rules context (ReadFile.evidence rules files))
      (rules.map fun r => (r, r.observations context ordered)) := by
  have hfired : ((rules.map fun r => (r, r.observations context ordered)).filter
        fun g => g.2 ≠ []) =
      (triggered rules context ordered).map fun r => (r, r.observations context ordered) := by
    rw [List.filter_map]
    refine congrArg _ (List.filter_congr fun r _ => ?_)
    cases h : r.observations context ordered <;> simp [h]
  have hgroup : ∀ r fs, (r, fs) ∈ rules.map (fun r => (r, r.observations context ordered)) →
      fs = r.observations context ordered := by
    intro r fs h
    obtain ⟨r', -, heq⟩ := List.mem_map.mp h
    obtain ⟨rfl, rfl⟩ := Prod.mk.inj heq
    rfl
  rw [evaluate_eq context hids hperm hstrict]
  constructor
  · simp [List.map_map, Function.comp_def]
  · rw [List.flatMap_map]
  · intro i check fs h
    rw [hgroup _ _ h, Rule.observations]
    cases check context <;> rfl
  · intro i languages skips check fs h o
    rw [hgroup _ _ h, Rule.observations, List.mem_filterMap]
    simp only [Rule.observationIn?_eq_some_iff, hperm.mem_iff]
  · intro i languages skips check fs h
    rw [hgroup _ _ h, Rule.observations, List.pairwise_filterMap]
    refine hstrict.imp ?_
    intro f g hlt o ho o' ho'
    exact ⟨f.path, g.path, Rule.file_of_observationIn? ho, Rule.file_of_observationIn? ho', hlt⟩
  · simp only [scoreOf, hfired, List.map_map, Function.comp_def]
    rfl
  · simp only [hfired, List.map_map, Function.comp_def]
    exact Text.distinct_eq_eraseDups _

end Engine

/-! ### Checks that break down -/

/-- The rule with a check that sees nothing where the check breaks down. -/
def Rule.unfailing : Rule → Rule
  | content i languages skips check => content i languages skips fun text =>
    match check text with
    | .failed => .clear
    | outcome => outcome
  | project i check => project i fun context => some ((check context).getD [])

namespace Engine

/-- A check that breaks down makes no difference to what is observed in a file. -/
theorem observationIn?_unfailing (f : ReadFile) (r : Rule) :
    r.unfailing.observationIn? f = r.observationIn? f := by
  rcases r with ⟨i, languages, skips, check⟩ | ⟨i, check⟩
  · have happlies : (Rule.content i languages skips check).unfailing.appliesTo f.1 =
        (Rule.content i languages skips check).appliesTo f.1 := rfl
    unfold Rule.observationIn?
    rw [happlies]
    congr 1
    funext text
    simp only [Rule.unfailing, Rule.findingIn?]
    rcases h : check text with _ | s | _ <;> simp
  · rw [Rule.unfailing, Rule.observationIn?_project, Rule.observationIn?_project]

/-- A check that breaks down makes no difference to what a rule observes. -/
theorem observations_unfailing (context : ProjectContext) (files : List ReadFile) (r : Rule) :
    r.unfailing.observations context files = r.observations context files := by
  rcases r with ⟨i, languages, skips, check⟩ | ⟨i, check⟩
  · exact List.filterMap_congr fun f _ =>
      observationIn?_unfailing f (.content i languages skips check)
  · rfl

/-- A rule made unfailing keeps its name, -/
theorem id_unfailing (r : Rule) : r.unfailing.id = r.id := by
  cases r <;> rfl

/-- and what is said of it. -/
theorem info_unfailing (r : Rule) : r.unfailing.info = r.info := by
  cases r <;> rfl

/-- A check that breaks down makes no difference to the verdict. -/
theorem evaluate_unfailing {rules : List Rule} {files ordered : List ReadFile}
    (context : ProjectContext) (hids : (rules.map Rule.id).Nodup)
    (hperm : ordered.Perm files) (hstrict : ordered.Pairwise fun a b => a.path < b.path) :
    evaluate (rules.map Rule.unfailing) context
        (ReadFile.evidence (rules.map Rule.unfailing) files) =
      evaluate rules context (ReadFile.evidence rules files) := by
  have hids' : ((rules.map Rule.unfailing).map Rule.id).Nodup := by
    rw [List.map_map]
    simpa [Function.comp_def, id_unfailing] using hids
  have htriggered : triggered (rules.map Rule.unfailing) context ordered =
      (triggered rules context ordered).map Rule.unfailing := by
    simp only [triggered, List.filter_map, Function.comp_def, observations_unfailing]
  rw [evaluate_eq context hids' hperm hstrict, evaluate_eq context hids hperm hstrict, htriggered]
  simp only [List.map_map, List.flatMap_map, Function.comp_def, observations_unfailing,
    info_unfailing]

/-! ### The account -/

/-- **Scoring loses and invents nothing.** With rules of different names and files of different
paths the verdict accounts for what the rules saw, and it is the one that comes out when every
check that breaks down sees nothing instead. -/
theorem evaluate_accounts (rules : List Rule) (hids : (rules.map Rule.id).Nodup)
    (files : List ReadFile) (hpaths : (files.map ReadFile.path).Nodup) (context : ProjectContext) :
    (∃ groups, Accounts rules context files
      (evaluate rules context (ReadFile.evidence rules files)) groups) ∧
    evaluate (rules.map Rule.unfailing) context
        (ReadFile.evidence (rules.map Rule.unfailing) files) =
      evaluate rules context (ReadFile.evidence rules files) := by
  have hperm : (files.mergeSort (Sorting.before ReadFile.path)).Perm files :=
    files.mergeSort_perm _
  have hstrict := Sorting.pairwise_mergeSort_lt ReadFile.path hpaths
  exact ⟨⟨_, accounts_observations context hids hperm hstrict⟩,
    evaluate_unfailing context hids hperm hstrict⟩

/-- A rule about files whose check breaks down on one of them, and a rule about the project whose
check always does: only the other file gives a finding, and the score falls to the bottom. -/
theorem evaluate_accounts_of_broken_checks :
    let rules : List Rule := [
      .content ⟨"a", "quality", "info", 150, "A", "mend a"⟩ [] true fun text =>
        if text.isEmpty then .failed else .seen ⟨none, none, some 1⟩,
      .project ⟨"b", "security", "error", -20, "B", "mend b"⟩ fun _ => none]
    let files : List ReadFile := [
      (⟨"y.py", 0, ".py", .unknown, .ofInt 0, 0⟩, some []),
      (⟨"x.py", 1, ".py", .unknown, .ofInt 0, 0⟩, some ['x'])]
    let context : ProjectContext :=
      ⟨[], [], Directory.make .default "p" "" [] [] true, .generic, [],
      Metrics.measure .default [] [], none, .default, []⟩
    (rules.map Rule.id).Nodup ∧ (files.map ReadFile.path).Nodup ∧
      (∃ groups, Accounts rules context files
        (evaluate rules context (ReadFile.evidence rules files)) groups) ∧
      evaluate (rules.map Rule.unfailing) context
          (ReadFile.evidence (rules.map Rule.unfailing) files) =
        evaluate rules context (ReadFile.evidence rules files) := by
  intro rules files context
  have hids : (rules.map Rule.id).Nodup := by decide
  have hpaths : (files.map ReadFile.path).Nodup := by decide
  exact ⟨hids, hpaths, evaluate_accounts rules hids files hpaths context⟩

end Engine

end ProjectSurvey
