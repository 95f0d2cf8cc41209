import Mathlib.Algebra.BigOperators.Group.List.Basic
import ProjectSurvey.Advice
import ProjectSurvey.DirectoryTree
import ProjectSurvey.Proofs.Sorting

/-!
# The order of the rules

A verdict lists its findings in the order of the rules, and advice lists what is to be attended to
in an order of its own. **In another order the rules come to the same verdict, except that its lists
are in another order too, and to the very same advice** (`evaluate_perm`): a verdict adds up
penalties and puts findings together, and advice asks only for the score and for whether there is a
finding of some kind. The evidence is sorted by path before it is looked at, so the order in which
it was gathered does not matter either.
-/

namespace ProjectSurvey

/-- Whether two verdicts are the same but for the order of their lists. -/
structure Verdict.Reorders (v v' : Verdict) : Prop where
  /-- They have the same score, -/
  score : v.score = v'.score
  /-- the same findings, each as often, -/
  findings : v.findings.Perm v'.findings
  /-- and the same suggestions, each once. -/
  suggestions : v.suggestions.Perm v'.suggestions

/-- Their findings about security are the same too. -/
theorem Verdict.Reorders.security {v v' : Verdict} (h : v.Reorders v') :
    v.security.Perm v'.security := h.findings.filter _

/-- The members of a list without repetition do not depend on its order. -/
theorem Text.distinct_perm {α : Type} [BEq α] [LawfulBEq α] [Hashable α] {xs ys : List α}
    (h : xs.Perm ys) : (distinct xs).Perm (distinct ys) := by
  rw [List.perm_ext_iff_of_nodup (nodup_distinct xs) (nodup_distinct ys)]
  intro x
  rw [mem_distinct, mem_distinct, h.mem_iff]

namespace Engine

variable {rules rules' : List Rule} {evidence evidence' : Assoc String Evidence}

/-- Evidence of different paths gives the same findings in whatever order it was gathered. -/
theorem contentFindings_eq_of_perm (h : evidence.Perm evidence')
    (hpaths : (Assoc.keys evidence).Nodup) :
    contentFindings evidence = contentFindings evidence' := by
  have hstrict := Sorting.pairwise_mergeSort_lt Prod.fst hpaths
  have hperm : (evidence.mergeSort (Sorting.before Prod.fst)).Perm evidence' :=
    (evidence.mergeSort_perm _).trans h
  have hsorted : evidence'.mergeSort (Sorting.before Prod.fst) =
      evidence.mergeSort (Sorting.before Prod.fst) :=
    Sorting.mergeSort_eq_of_perm Prod.fst hperm hstrict
  unfold contentFindings
  exact congrArg (List.flatMap fun p : String × Evidence => p.2.findings) hsorted.symm

/-- The same findings in files, judged by the same rules in another order. -/
theorem evaluate_reorders (h : rules.Perm rules') (context : ProjectContext)
    (hsame : contentFindings evidence = contentFindings evidence') :
    (evaluate rules context evidence).Reorders (evaluate rules' context evidence') := by
  -- what a rule finds does not depend on the rules beside it
  have htriggered :
      ((rules.map fun r => (r, findingsOf context (contentFindings evidence) r)).filter
        fun p => !p.2.isEmpty).Perm
      ((rules'.map fun r => (r, findingsOf context (contentFindings evidence') r)).filter
        fun p => !p.2.isEmpty) := by
    rw [← hsame]
    exact (h.map _).filter _
  refine ⟨?_, ?_, ?_⟩
  · have hsum := (htriggered.map fun p => p.1.info.penalty).sum_eq
    show clampScore (100 - _) = clampScore (100 - _)
    rw [hsum]
  · exact htriggered.flatMap_right Prod.snd
  · exact Text.distinct_perm (htriggered.map fun p => p.1.info.suggestion)

end Engine

namespace Advice

variable {v v' : Verdict}

/-- Whether a rule has a finding does not depend on the order of the findings. -/
theorem triggered_eq_of_reorders (h : v.Reorders v') (id : String) :
    triggered v id = triggered v' id := h.findings.any_eq

/-- Advice does not depend on the order of the findings. -/
theorem synthesize_eq_of_reorders (h : v.Reorders v') (m : Metrics) (p : ProjectProfile) :
    synthesize m v v.security p = synthesize m v' v'.security p := by
  have hsecurity : v.security.isEmpty = v'.security.isEmpty := h.security.isEmpty_eq
  have hfocus : focusOf v v.security p = focusOf v' v'.security p := by
    unfold focusOf
    rw [hsecurity, triggered_eq_of_reorders h, triggered_eq_of_reorders h, h.findings.any_eq]
  have hpriority : priorityOf m v v.security = priorityOf m v' v'.security := by
    unfold priorityOf
    rw [hsecurity, h.score, triggered_eq_of_reorders h, triggered_eq_of_reorders h]
  have hinsights : insightsOf m v p = insightsOf m v' p := by
    unfold insightsOf
    rw [h.score]
  unfold synthesize
  rw [hfocus, hpriority, hinsights, h.score]

end Advice

namespace Engine

/-- **Rules in another order, and evidence gathered in another order, come to the same verdict but
for the order of its lists, and to the same advice.** -/
theorem evaluate_perm {rules rules' : List Rule} {evidence evidence' : Assoc String Evidence}
    (hrules : rules.Perm rules') (hevidence : evidence.Perm evidence')
    (hpaths : (Assoc.keys evidence).Nodup) (context : ProjectContext) :
    (evaluate rules context evidence).Reorders (evaluate rules' context evidence') ∧
      ∀ m p, Advice.synthesize m (evaluate rules context evidence)
          (evaluate rules context evidence).security p =
        Advice.synthesize m (evaluate rules' context evidence')
          (evaluate rules' context evidence').security p := by
  have hreorders := evaluate_reorders hrules context (contentFindings_eq_of_perm hevidence hpaths)
  exact ⟨hreorders, Advice.synthesize_eq_of_reorders hreorders⟩

/-- A rule about files, which has a finding in either of two, and a rule about the project, which
has one too: their findings come in another order, the advice is the same. -/
theorem evaluate_perm_of_swapped :
    let inFiles : Rule := .content ⟨"a", "performance", "info", 10, "A", "mend"⟩ [] true
      fun _ => .seen ⟨none, none, some 1⟩
    let ofProject : Rule := .project ⟨"missing-tests", "security", "error", 30, "B", "mend"⟩
      fun _ => some [⟨none, none, none⟩]
    let x : String × Evidence := ("x.py", ⟨"x.py", some 1, [], [],
      [RuleInfo.finding inFiles.info ⟨none, some "x.py", some 1⟩]⟩)
    let y : String × Evidence := ("y.py", ⟨"y.py", some 1, [], [],
      [RuleInfo.finding inFiles.info ⟨none, some "y.py", some 1⟩]⟩)
    let context : ProjectContext :=
      ⟨[], [], Directory.make .default "p" "" [] [] true, .generic, [],
      Metrics.measure .default [] [], none, .default, []⟩
    let v := evaluate [inFiles, ofProject] context [x, y]
    let v' := evaluate [ofProject, inFiles] context [y, x]
    [inFiles, ofProject].Perm [ofProject, inFiles] ∧ [x, y].Perm [y, x] ∧
      (Assoc.keys [x, y]).Nodup ∧ v.Reorders v' ∧
      ∀ m p, Advice.synthesize m v v.security p = Advice.synthesize m v' v'.security p := by
  intro inFiles ofProject x y context v v'
  have hrules : [inFiles, ofProject].Perm [ofProject, inFiles] := .swap ..
  have hevidence : [x, y].Perm [y, x] := .swap ..
  have hpaths : (Assoc.keys [x, y]).Nodup := by simp [Assoc.keys, x, y]
  exact ⟨hrules, hevidence, hpaths, evaluate_perm hrules hevidence hpaths context⟩

end Engine

end ProjectSurvey
