import ProjectSurvey.Proofs.Narrowing
import ProjectSurvey.Proofs.Survey.Coherence

/-!
# Disabling rules

Two surveys of one project that differ in the rules that are switched off. **Disabling rules is a
filter** (`Surveyor.conduct_disabling`): the findings of the rules in question go and all else
stays, so that no rule has an influence on another one or on another part of a survey. A survey that
does not come to an end does so for no reason that has to do with rules.

The two runs take the same steps up to the evidence (`Work.related_bind`); what is made of the
evidence is a matter of `Proofs.Narrowing`.
-/

namespace ProjectSurvey

/-- Options under which some rules are switched off, and no others. -/
def Options.disabling (o : Options) (ids : List String) : Options := { o with disabledRules := ids }

namespace Rule

/-- No built-in rule has a negative penalty. -/
theorem costs_builtin (oversizedLines : Int) :
    ∀ r ∈ builtin oversizedLines, 0 ≤ r.info.penalty := by
  have hcosts : ∀ n ∈ (builtin 0).map fun r => r.info.penalty, 0 ≤ n := by decide
  intro r hr
  exact hcosts _ (List.mem_map_of_mem (f := fun r => r.info.penalty) hr)

/-- The suggestions of the built-in rules are distinct. -/
theorem nodup_suggestions_builtin (oversizedLines : Int) :
    ((builtin oversizedLines).map fun r => r.info.suggestion).Nodup := by
  show ((builtin 0).map fun r => r.info.suggestion).Nodup
  decide

/-- Switching off more rules leaves out some of the table. -/
theorem table_of_subset {ids ids' : List String}
    (h : ids.map Text.lowered ⊆ ids'.map Text.lowered) (oversizedLines : Int) :
    table ids' oversizedLines [] =
      (table ids oversizedLines []).filter fun r => stays ids' r.id := by
  rw [table_eq_filter, table_eq_filter, List.filter_filter]
  refine List.filter_congr ?_
  intro r _
  have hstays : stays ids' r.id = !(ids'.map Text.lowered).contains r.key := rfl
  rw [hstays]
  cases hold : (ids.map Text.lowered).contains r.key with
  | false => rw [Bool.not_false, Bool.and_true]
  | true =>
    rw [List.contains_iff_mem.mpr (h (List.contains_iff_mem.mp hold))]
    rfl

end Rule

namespace Survey

/-- Whether a survey is another one without the findings of some rules, ids being compared without
regard to case. -/
structure IsNarrowedTo (v v' : Survey) (ids : List String) : Prop where
  /-- They are about the same project, and passed over the same directories. -/
  header : v'.header = v.header
  /-- The kind of project is the same. -/
  profile : v'.profile = v.profile
  /-- The tree is the same. -/
  tree : v'.tree = v.tree
  /-- The structure is the same. -/
  layout : v'.layout = v.layout
  /-- The declared packages are the same. -/
  dependencies : v'.dependencies = v.dependencies
  /-- The graph is the same. -/
  graph : v'.graph = v.graph
  /-- The metrics are the same. -/
  metrics : v'.metrics = v.metrics
  /-- The findings are those of the other rules, in the same order. -/
  findings : v'.verdict.findings = v.verdict.findings.filter fun f => f.passes (Rule.stays ids)
  /-- So are the findings about security. -/
  security : v'.security = v.security.filter fun f => f.passes (Rule.stays ids)
  /-- The suggestions come in the same order, and some may be missing. -/
  suggestions : v'.verdict.suggestions.Sublist v.verdict.suggestions
  /-- The score does not fall. -/
  score : v.verdict.score ≤ v'.verdict.score

/-- **Material without some rules and without what they found makes a survey without them.** -/
theorem assemble_isNarrowedTo {m : Material} {ids : List String}
    (hcosts : ∀ r ∈ m.rules, 0 ≤ r.info.penalty)
    (hdifferent : (m.rules.map fun r => r.info.suggestion).Nodup) :
    (assemble m).IsNarrowedTo (assemble { m with
      rules := m.rules.filter fun r => Rule.stays ids r.id
      evidence := Evidence.narrowAll (Rule.stays ids) m.evidence }) ids := by
  have hmetrics := Metrics.measure_narrowAll m.tables m.scan.files (Rule.stays ids) m.evidence
  have hcontext : Material.context { m with
      rules := m.rules.filter fun r => Rule.stays ids r.id
      evidence := Evidence.narrowAll (Rule.stays ids) m.evidence } = m.context := by
    unfold Material.context
    rw [hmetrics]
  have hfindings := Engine.findings_narrow m.rules (Rule.stays ids) m.context m.evidence
  refine
    { header := rfl
      profile := rfl
      tree := rfl
      layout := rfl
      dependencies := rfl
      graph := Graph.build_narrowAll _ _ _ _ _
      metrics := hmetrics
      findings := ?_
      security := ?_
      suggestions := ?_
      score := ?_ }
  · rw [verdict_assemble, hcontext]
    exact hfindings
  · show Verdict.security (assemble _).verdict =
      (Verdict.security (assemble m).verdict).filter fun f => f.passes (Rule.stays ids)
    rw [verdict_assemble, verdict_assemble, hcontext, Verdict.security, hfindings, Verdict.security,
      List.filter_comm]
  · rw [verdict_assemble, hcontext]
    exact Engine.suggestions_narrow hdifferent _ _ _
  · rw [verdict_assemble m, verdict_assemble, hcontext]
    exact Engine.score_narrow hcosts _ _ _

end Survey

/-- Two results that begin with the same step are related if what comes after it is, and failures
are. -/
theorem Work.related_bind {α β : Type} {R : Except Failure β → Except Failure β → Prop}
    (hfail : ∀ f, R (.error f) (.error f)) {x : Work α} {f g : α → Work β} {w : Workspace}
    (h : ∀ a w', x.run w = (.ok a, w') → R ((f a).run w').1 ((g a).run w').1) :
    R ((x >>= f).run w).1 ((x >>= g).run w).1 := by
  rw [run_bind, run_bind]
  cases hx : x.run w with
  | mk r w' =>
    cases r with
    | error e => exact hfail e
    | ok a => exact h a w' hx

namespace Surveyor

open Work

/-- What switching off more rules does to the result of a survey. -/
inductive Narrows (ids : List String) : Except Failure Survey → Except Failure Survey → Prop where
  /-- A failure stays the same one. -/
  | failed (f : Failure) : Narrows ids (.error f) (.error f)
  /-- A survey loses the findings of the rules that are switched off. -/
  | narrowed {v v' : Survey} : v.IsNarrowedTo v' ids → Narrows ids (.ok v) (.ok v')

/-- A survey narrows to a survey. -/
theorem Narrows.exists_of_ok {ids : List String} {v : Survey} {r : Except Failure Survey}
    (h : Narrows ids (.ok v) r) : ∃ v', r = .ok v' ∧ v.IsNarrowedTo v' ids := by
  cases h with
  | narrowed hnarrowed => exact ⟨_, rfl, hnarrowed⟩

/-- Overriding and disabling commute. -/
theorem override?_disabling (o : Options) (ids : List String) (wishes : Overrides) :
    (o.disabling ids).override? wishes = (o.override? wishes).map fun o => o.disabling ids := by
  unfold Options.override?
  split <;> rfl

/-- Fewer rules gather the evidence narrowed to those that stay. -/
theorem gather_disabling {s : Surveyor} (hrules : s.rules = none) (disk : Entry) (root : Location)
    (o : Options) {ids ids' : List String} (h : ids.map Text.lowered ⊆ ids'.map Text.lowered)
    (records : List FileRecord) :
    ((s.gatheringOf disk root (o.disabling ids')).gather none records).1 =
      Evidence.narrowAll (Rule.stays ids')
        ((s.gatheringOf disk root (o.disabling ids)).gather none records).1 := by
  rw [Gathering.gather_none, Gathering.gather_none, Evidence.narrowAll, List.map_map]
  refine List.map_congr_left ?_
  intro r _
  show (r.path, Evidence.ofText (s.rulesFor (o.disabling ids')) r _) =
    (r.path, (Evidence.ofText (s.rulesFor (o.disabling ids)) r _).narrow _)
  rw [rulesFor_of_builtin hrules, rulesFor_of_builtin hrules, ← Evidence.ofText_narrow]
  exact congrArg (fun rules => (r.path, Evidence.ofText rules r _))
    (Rule.table_of_subset h o.oversizedLines)

/-- The surveys that are made of the evidence under the two sets of rules. -/
theorem conclusion_disabling {s : Surveyor} (hrules : s.rules = none) (disk : Entry)
    (root : Location) (o : Options) {ids ids' : List String}
    (h : ids.map Text.lowered ⊆ ids'.map Text.lowered) (sc : Scan) (manifests : Manifests)
    (found : Assoc String Evidence) :
    (s.conclusion disk root (o.disabling ids) sc manifests found).IsNarrowedTo
      (s.conclusion disk root (o.disabling ids') sc manifests
        (Evidence.narrowAll (Rule.stays ids') found)) ids' := by
  unfold conclusion
  rw [rulesFor_of_builtin hrules, rulesFor_of_builtin hrules]
  show (Survey.assemble _).IsNarrowedTo (Survey.assemble { rules := Rule.table ids' _ [], .. }) ids'
  rw [Rule.table_of_subset h]
  apply Survey.assemble_isNarrowedTo
  · intro r hr
    rw [Rule.table_eq_filter] at hr
    exact Rule.costs_builtin _ r (List.mem_filter.mp hr).1
  · rw [Rule.table_eq_filter]
    exact (Rule.nodup_suggestions_builtin _).sublist (List.filter_sublist.map _)

/-- Whether there is a signature does not depend on the rules that are switched off. -/
theorem isSome_signatureOf?_disabling (s : Surveyor) (o : Options) (ids ids' : List String) :
    (s.signatureOf? (o.disabling ids')).isSome = (s.signatureOf? (o.disabling ids)).isSome :=
  Bool.eq_iff_iff.mpr
    ((Gathering.isSome_signatureOf?_iff _).trans (Gathering.isSome_signatureOf?_iff _).symm)

/-- **Disabling rules is a filter**, whatever the project, the options and the wishes, if the rules
are the built-in ones and the cache is off. -/
theorem conduct_disabling {s : Surveyor} {w : Workspace} {path : String} {o : Options}
    {wishes : Overrides} {ids ids' : List String} (hrules : s.rules = none)
    (hcache : wishes.cache.getD o.cache = false)
    (hids : ids.map Text.lowered ⊆ ids'.map Text.lowered) :
    Narrows ids' ((s.conduct path (some (o.disabling ids)) wishes).run w).1
      ((s.conduct path (some (o.disabling ids')) wishes).run w).1 := by
  unfold conduct
  -- the root is the same and passes its check or does not
  refine related_bind .failed ?_
  intro root w₁ _
  refine related_bind .failed ?_
  intro _ w₂ _
  refine related_bind .failed ?_
  intro w₃ w₄ _
  refine related_bind .failed ?_
  intro _ w₅ _
  unfold options
  dsimp only
  rw [pure_bind, pure_bind, override?_disabling, override?_disabling]
  cases ho : o.override? wishes with
  | none => exact .failed _
  | some o₁ =>
    dsimp only [Option.map_some]
    rw [pure_bind, pure_bind]
    have hscan : s.scan root (o₁.disabling ids') = s.scan root (o₁.disabling ids) := rfl
    rw [hscan]
    refine related_bind .failed ?_
    intro sc w₆ _
    refine related_bind .failed ?_
    intro manifests w₇ _
    -- without the cache the evidence comes to an end, and the disk stays as it is
    have huncached : ∀ ids, (o₁.disabling ids).cache = false := fun _ =>
      (override?_eq_some ho).2.1.trans hcache
    obtain ⟨w₈, hrun, h₈⟩ := evidence_yields s (o₁.disabling ids) sc w₇
    obtain ⟨w₉, hrun', h₉⟩ := evidence_yields s (o₁.disabling ids') sc w₇
    rw [evidenceOf_uncached s w₇.disk w₇.time (huncached _)] at hrun h₈ hrun' h₉
    rw [isSome_signatureOf?_disabling s o₁ ids ids'] at hrun'
    rw [run_bind, hrun, run_bind, hrun', gather_disabling hrules _ _ _ hids]
    -- with no signature both surveys fail
    cases (s.signatureOf? (o₁.disabling ids)).isSome with
    | false => exact .failed _
    | true =>
      show Narrows ids' (.ok (s.conclusion w₈.disk root (o₁.disabling ids) sc manifests _))
        (.ok (s.conclusion w₉.disk root (o₁.disabling ids') sc manifests _))
      rw [h₈.disk, h₉.disk]
      exact .narrowed (conclusion_disabling hrules _ _ _ hids _ _ _)

/-- What a survey of a module and a link comes to without some rules. -/
def turnedSurvey (ids : List String) : Except Failure Survey :=
  ((usual.conduct "/p" (some (Options.default.disabling ids)) Overrides.none).run
    FileReport.turnedWorkspace).1

/-- The two files have a survey with all rules and one without the rule on tests. -/
theorem conduct_disabling_turnedDisk : usual.rules = none ∧
    Overrides.none.cache.getD Options.default.cache = false ∧
    ([] : List String).map Text.lowered ⊆ ["Missing-Tests"].map Text.lowered ∧
    ∃ v v', turnedSurvey [] = .ok v ∧ turnedSurvey ["Missing-Tests"] = .ok v' ∧
      v.IsNarrowedTo v' ["Missing-Tests"] := by
  obtain ⟨sc, found, hrun, -⟩ := FileReport.exists_gathered_turnedDisk
  obtain ⟨hsc, hfound⟩ := gathered_eq_ok_iff.mp hrun
  have hroot : ((Work.locateProject "/p").run FileReport.turnedWorkspace).1 = .ok ["p"] := by
    decide
  have ho : ((options ["p"] (some (Options.default.disabling [])) Overrides.none).run
      FileReport.turnedWorkspace).1 = .ok .default := by
    unfold options
    dsimp only
    rw [pure_bind, override?_disabling, override?_default]
    rfl
  have hall : turnedSurvey [] = .ok _ := conduct_eq_ok_iff.mpr ⟨["p"], .default, sc, found, _,
    hroot, FileReport.isReadable_turnedDisk.check, ho, hsc, Prod.fst_eq_iff.mp hfound, rfl⟩
  have hnarrows : Narrows ["Missing-Tests"] (turnedSurvey []) (turnedSurvey ["Missing-Tests"]) :=
    conduct_disabling rfl rfl (List.nil_subset _)
  rw [hall] at hnarrows
  obtain ⟨v', hsome, hnarrowed⟩ := hnarrows.exists_of_ok
  exact ⟨rfl, rfl, List.nil_subset _, _, _, hall, hsome, hnarrowed⟩

end Surveyor

end ProjectSurvey
