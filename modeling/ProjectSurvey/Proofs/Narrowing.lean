import Mathlib.Algebra.Order.BigOperators.Group.List
import ProjectSurvey.Graph.Build
import ProjectSurvey.Proofs.Findings

/-!
# Some of the rules

What becomes of a verdict when only the rules of some ids stay, in the table and in the evidence.
**Leaving out rules leaves out their findings and nothing else** (`Engine.findings_narrow`): no
other rule notices, the suggestions lose members only, and the score does not fall. The graph and
the metrics do not depend on findings at all.

The three statements on the verdict come down to one on its groups: those of the rules that stay are
groups of the whole table (`Engine.fired_narrow`).
-/

namespace ProjectSurvey

/-- Whether a finding stays where the rules of some ids do. What names no rule stays. -/
def Finding.passes (keep : String → Bool) (f : Finding) : Bool := f.ruleId.text?.all keep

namespace Evidence

/-- The evidence with the findings of the rules that stay. -/
def narrow (keep : String → Bool) (e : Evidence) : Evidence :=
  { e with findings := e.findings.filter fun f => f.passes keep }

/-- All evidence with the findings of the rules that stay. -/
def narrowAll (keep : String → Bool) (evidence : Assoc String Evidence) : Assoc String Evidence :=
  evidence.map fun p => (p.1, p.2.narrow keep)

/-- Narrowed evidence is looked up as the evidence narrowed. -/
theorem get?_narrowAll (keep : String → Bool) (evidence : Assoc String Evidence) (path : String) :
    Assoc.get? path (narrowAll keep evidence) =
      (Assoc.get? path evidence).map fun e => e.narrow keep := by
  induction evidence with
  | nil => rfl
  | cons p rest ih =>
    obtain ⟨k, e⟩ := p
    rw [narrowAll] at ih ⊢
    rw [List.map_cons, Assoc.get?, Assoc.get?]
    by_cases hk : k = path
    · simp [hk]
    · rw [if_neg hk, if_neg hk, ih]

end Evidence

open Evidence

/-! ### What does not depend on findings -/

/-- Metrics read nothing of the findings. -/
theorem Metrics.measure_narrowAll (t : Tables) (records : List FileRecord) (keep : String → Bool)
    (evidence : Assoc String Evidence) :
    measure t records (narrowAll keep evidence) = measure t records evidence := by
  have hlines : ∀ path, (Assoc.get? path (narrowAll keep evidence)).bind Evidence.lines =
      (Assoc.get? path evidence).bind Evidence.lines := by
    intro path
    rw [get?_narrowAll, Option.bind_map]
    rfl
  simp only [measure, hlines]

/-- The graph reads nothing of the findings either. -/
theorem Graph.build_narrowAll (t : Tables) (records : List FileRecord) (keep : String → Bool)
    (evidence : Assoc String Evidence) (manifests : Manifests) :
    build t records (narrowAll keep evidence) manifests = build t records evidence manifests := by
  have hreferences : ∀ path, (Assoc.get? path (narrowAll keep evidence)).map Evidence.references =
      (Assoc.get? path evidence).map Evidence.references := by
    intro path
    rw [get?_narrowAll, Option.map_map]
    rfl
  have hexports : ∀ path, (Assoc.get? path (narrowAll keep evidence)).map Evidence.exports =
      (Assoc.get? path evidence).map Evidence.exports := by
    intro path
    rw [get?_narrowAll, Option.map_map]
    rfl
  simp only [build, sourceNode, hreferences, hexports]

/-! ### What is gathered -/

/-- What a rule finds in a file stays if the rule does. -/
theorem Rule.passes_of_findingIn? {keep : String → Bool} {path : String} {text : List Char}
    {r : Rule} {f : Finding} (h : r.findingIn? path text = some f) : f.passes keep = keep r.id := by
  cases r with
  | project i check => cases h
  | content i languages skips check =>
    rw [findingIn?] at h
    split at h
    · obtain rfl := Option.some.inj h
      rfl
    · contradiction

/-- **The rules that stay find in a file what they found among all rules.** -/
theorem Engine.scanContent_narrow (rules : List Rule) (keep : String → Bool) (record : FileRecord)
    (text : List Char) :
    scanContent (rules.filter fun r => keep r.id) record text =
      (scanContent rules record text).filter fun f => f.passes keep := by
  unfold scanContent
  rw [List.filter_filterMap, List.filter_comm, List.filterMap_filter]
  refine List.filterMap_congr ?_
  intro r _
  cases hfound : r.findingIn? record.path text with
  | none => simp
  | some f =>
    rw [Option.filter_some, Rule.passes_of_findingIn? hfound]

/-- The evidence of fewer rules is the evidence narrowed to them. -/
theorem Evidence.ofText_narrow (rules : List Rule) (keep : String → Bool) (record : FileRecord)
    (text : Option (List Char)) :
    ofText (rules.filter fun r => keep r.id) record text =
    (ofText rules record text).narrow keep := by
  cases text with
  | none => rfl
  | some text =>
    unfold ofText narrow
    dsimp only
    rw [Engine.scanContent_narrow]

namespace Engine

variable {rules : List Rule} {keep : String → Bool} {c : ProjectContext}
  {evidence : Assoc String Evidence}

/-! ### The verdict -/

/-- The findings in all evidence, by path, are those that stay among all findings. -/
theorem contentFindings_narrowAll (keep : String → Bool) (evidence : Assoc String Evidence) :
    contentFindings (narrowAll keep evidence) =
      (contentFindings evidence).filter fun f => f.passes keep := by
  -- the paths stay, and so does their order
  have hsort : (narrowAll keep evidence).mergeSort (fun a b => decide (a.1 ≤ b.1)) =
      narrowAll keep (evidence.mergeSort fun a b => decide (a.1 ≤ b.1)) := by
    refine (List.map_mergeSort ?_).symm
    exact fun _ _ _ _ => rfl
  unfold contentFindings
  rw [hsort, narrowAll, List.flatMap_map, List.filter_flatMap]
  rfl

/-- The findings of a rule stay if the rule does. -/
theorem passes_of_mem_findingsOf {inFiles : List Finding} {r : Rule} {f : Finding}
    (hf : f ∈ findingsOf c inFiles r) : f.passes keep = keep r.id := by
  rw [Finding.passes, ruleId_of_mem_findingsOf hf]
  rfl

/-- A rule that stays has the findings that it had among all findings. -/
theorem findingsOf_narrow {inFiles : List Finding} {r : Rule} (hr : keep r.id = true) :
    findingsOf c (inFiles.filter fun f => f.passes keep) r = findingsOf c inFiles r := by
  unfold findingsOf
  cases hcontent : r.isContent with
  | false => rfl
  | true =>
    rw [if_pos rfl, if_pos rfl, List.filter_filter]
    refine List.filter_congr ?_
    intro f hf
    cases hof : f.isOf r.id with
    | false => rfl
    | true =>
      have hmem : f ∈ findingsOf c inFiles r := by
        rw [findingsOf, if_pos hcontent]
        exact List.mem_filter.mpr ⟨hf, hof⟩
      rw [passes_of_mem_findingsOf hmem, hr]
      rfl

/-- The rules with findings, each with its findings. -/
def fired (rules : List Rule) (c : ProjectContext) (evidence : Assoc String Evidence) :
    List (Rule × List Finding) :=
  (rules.map fun r => (r, findingsOf c (contentFindings evidence) r)).filter fun g => !g.2.isEmpty

/-- **The groups of the rules that stay are groups of the whole table.** -/
theorem fired_narrow (rules : List Rule) (keep : String → Bool) (c : ProjectContext)
    (evidence : Assoc String Evidence) :
    fired (rules.filter fun r => keep r.id) c (narrowAll keep evidence) =
      (fired rules c evidence).filter fun g => keep g.1.id := by
  have hgroups : (rules.filter fun r => keep r.id).map
        (fun r => (r, findingsOf c (contentFindings (narrowAll keep evidence)) r)) =
      (rules.map fun r => (r, findingsOf c (contentFindings evidence) r)).filter
        fun g => keep g.1.id := by
    rw [List.filter_map]
    refine List.map_congr_left ?_
    intro r hr
    rw [contentFindings_narrowAll, findingsOf_narrow (List.mem_filter.mp hr).2]
  rw [fired, fired, hgroups, List.filter_comm]

/-- The rules with findings come in the order of the table. -/
theorem map_fst_fired_sublist (rules : List Rule) (c : ProjectContext)
    (evidence : Assoc String Evidence) : ((fired rules c evidence).map Prod.fst).Sublist rules := by
  have hall : ((rules.map fun r => (r, findingsOf c (contentFindings evidence) r)).map
      Prod.fst) = rules := by
    rw [List.map_map]
    exact List.map_id _
  have hsublist := (List.filter_sublist (l := rules.map fun r =>
    (r, findingsOf c (contentFindings evidence) r)) (p := fun g => !g.2.isEmpty)).map Prod.fst
  rwa [hall] at hsublist

/-- A finding passes exactly when the rule that fired it is kept. -/
theorem passes_of_mem_fired {g : Rule × List Finding} (hg : g ∈ fired rules c evidence) :
    ∀ f ∈ g.2, f.passes keep = keep g.1.id := by
  obtain ⟨r, -, rfl⟩ := List.mem_map.mp (List.mem_filter.mp hg).1
  exact fun f hf => passes_of_mem_findingsOf hf

/-- **The findings are those of the rules that stay.** -/
theorem findings_narrow (rules : List Rule) (keep : String → Bool) (c : ProjectContext)
    (evidence : Assoc String Evidence) :
    (evaluate (rules.filter fun r => keep r.id) c (narrowAll keep evidence)).findings =
      (evaluate rules c evidence).findings.filter fun f => f.passes keep := by
  show (fired _ c _).flatMap Prod.snd = ((fired rules c evidence).flatMap Prod.snd).filter _
  rw [fired_narrow, List.filter_flatMap]
  have hpasses : ∀ g ∈ fired rules c evidence, ∀ f ∈ g.2, f.passes keep = keep g.1.id :=
    fun g hg => passes_of_mem_fired hg
  generalize fired rules c evidence = groups at hpasses ⊢
  -- a group stays as a whole or not at all
  induction groups with
  | nil => rfl
  | cons g rest ih =>
    have hg := hpasses g List.mem_cons_self
    have hrest := fun g' hg' => hpasses g' (List.mem_cons_of_mem g hg')
    rw [List.flatMap_cons, ← ih hrest, List.filter_cons]
    cases hkeep : keep g.1.id with
    | true =>
      have hall : g.2.filter (fun f => f.passes keep) = g.2 :=
        List.filter_eq_self.mpr fun f hf => (hg f hf).trans hkeep
      rw [if_pos rfl, List.flatMap_cons, hall]
    | false =>
      have hnone : g.2.filter (fun f => f.passes keep) = [] :=
        List.filter_eq_nil_iff.mpr fun f hf => by simp [hg f hf, hkeep]
      rw [if_neg Bool.false_ne_true, hnone, List.nil_append]

/-- **The suggestions lose members only**, if the suggestions of the rules are all different. -/
theorem suggestions_narrow (hdifferent : (rules.map fun r => r.info.suggestion).Nodup)
    (keep : String → Bool) (c : ProjectContext) (evidence : Assoc String Evidence) :
    (evaluate (rules.filter fun r => keep r.id) c (narrowAll keep evidence)).suggestions.Sublist
      (evaluate rules c evidence).suggestions := by
  show (Text.distinct ((fired _ c _).map fun g => g.1.info.suggestion)).Sublist
    (Text.distinct ((fired rules c evidence).map fun g => g.1.info.suggestion))
  have hnodup : ((fired rules c evidence).map fun g => g.1.info.suggestion).Nodup := by
    have hsublist := (map_fst_fired_sublist rules c evidence).map fun r => r.info.suggestion
    rw [List.map_map] at hsublist
    exact hdifferent.sublist hsublist
  rw [fired_narrow]
  have hsublist := (List.filter_sublist (l := fired rules c evidence)
    (p := fun g => keep g.1.id)).map fun g => g.1.info.suggestion
  rw [Text.distinct_of_nodup hnodup, Text.distinct_of_nodup (hnodup.sublist hsublist)]
  exact hsublist

/-- Clamping a score keeps the order. -/
theorem clampScore_mono {m n : Int} (h : m ≤ n) : clampScore m ≤ clampScore n := by
  unfold clampScore
  omega

/-- **The score does not fall**, if no rule has a negative penalty. -/
theorem score_narrow (hcost : ∀ r ∈ rules, 0 ≤ r.info.penalty) (keep : String → Bool)
    (c : ProjectContext) (evidence : Assoc String Evidence) :
    (evaluate rules c evidence).score ≤
      (evaluate (rules.filter fun r => keep r.id) c (narrowAll keep evidence)).score := by
  show clampScore (100 - ((fired rules c evidence).map fun g => g.1.info.penalty).sum) ≤
    clampScore (100 - ((fired _ c _).map fun g => g.1.info.penalty).sum)
  rw [fired_narrow]
  apply clampScore_mono
  have hsublist := (List.filter_sublist (l := fired rules c evidence)
    (p := fun g => keep g.1.id)).map fun g => g.1.info.penalty
  have hcosts : ∀ n ∈ (fired rules c evidence).map fun g => g.1.info.penalty, 0 ≤ n := by
    intro n hn
    obtain ⟨g, hg, rfl⟩ := List.mem_map.mp hn
    exact hcost g.1 ((map_fst_fired_sublist rules c evidence).subset (List.mem_map_of_mem hg))
  have hsum := hsublist.sum_le_sum hcosts
  omega

end Engine

end ProjectSurvey
