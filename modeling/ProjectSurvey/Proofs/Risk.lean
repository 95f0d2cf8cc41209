import Mathlib.Algebra.Order.BigOperators.Group.List
import Mathlib.Order.Lattice
import ProjectSurvey.FileReport
import ProjectSurvey.Proofs.Narrowing

/-!
# Risk and score of a file

The risk of a file is the word for its gravest finding (`riskLevel_eq`), and its score is lowered
once for every content rule that found something (`fileScore_eq`). Neither asks in which order the
findings come or how often each comes. **So one more finding never makes a file look better**
(`findings_neverImprove`), also where it bears the name of no rule. That takes penalties that are
not negative; that no two rules share a name is needed only to say what a finding costs.
-/

namespace ProjectSurvey

/-! ### Risk -/

/-- The risk that findings make. -/
inductive Risk where
  /-- Nothing to speak of. -/
  | low
  /-- A warning, or any finding about security. -/
  | medium
  /-- An error of security. -/
  | high
  /-- An error of security found by a critical rule. -/
  | critical
  deriving DecidableEq

namespace Risk

/-- The word for a risk. -/
def text : Risk → String
  | low => "low"
  | medium => "medium"
  | high => "high"
  | critical => "critical"

/-- The place of a risk, from low to critical. -/
def rank : Risk → Nat
  | low => 0
  | medium => 1
  | high => 2
  | critical => 3

/-- The rank tells the risks apart. -/
theorem rank_injective : Function.Injective rank := by
  intro a b h
  cases a <;> cases b <;> first | rfl | cases h

instance : LinearOrder Risk := LinearOrder.lift' rank rank_injective

/-- No risk is below the lowest. -/
theorem low_le (r : Risk) : low ≤ r := Nat.zero_le r.rank

end Risk

/-- The risk that a finding makes by itself. -/
def Finding.risk (f : Finding) : Risk :=
  if f.isSecurity && f.severity.equalsText "error" then
    if criticalRules.any f.isOf then .critical else .high
  else if f.isSecurity || f.severity.equalsText "warning" then .medium
  else .low

namespace Finding

variable {f : Finding}

/-- A finding is critical when it is an error of one of the critical rules about security. -/
theorem critical_le_risk_iff : .critical ≤ f.risk ↔
    (f.isSecurity && (criticalRules.any f.isOf && f.severity.equalsText "error")) = true := by
  unfold risk
  cases f.isSecurity <;> cases f.severity.equalsText "error" <;>
    cases criticalRules.any f.isOf <;> cases f.severity.equalsText "warning" <;> decide

/-- A finding is of high risk or above when it is an error about security. -/
theorem high_le_risk_iff : .high ≤ f.risk ↔
    (f.isSecurity && f.severity.equalsText "error") = true := by
  unfold risk
  cases f.isSecurity <;> cases f.severity.equalsText "error" <;>
    cases criticalRules.any f.isOf <;> cases f.severity.equalsText "warning" <;> decide

/-- A finding is of medium risk or above when it is about security or a warning. -/
theorem medium_le_risk_iff : .medium ≤ f.risk ↔
    (f.isSecurity || f.severity.equalsText "warning") = true := by
  unfold risk
  cases f.isSecurity <;> cases f.severity.equalsText "error" <;>
    cases criticalRules.any f.isOf <;> cases f.severity.equalsText "warning" <;> decide

end Finding

namespace Risk

/-- The risk of the gravest of some findings. -/
def ofFindings (fs : List Finding) : Risk := (fs.map Finding.risk).foldr max low

/-- Findings make a risk if one of them does. -/
theorem le_ofFindings_iff {r : Risk} {fs : List Finding} (hr : r ≠ low) :
    r ≤ ofFindings fs ↔ ∃ f ∈ fs, r ≤ f.risk := by
  induction fs with
  | nil =>
    have hnot : ¬ r ≤ low := fun h => hr (le_antisymm h (low_le r))
    simpa [ofFindings] using hnot
  | cons f fs ih =>
    show r ≤ max f.risk (ofFindings fs) ↔ _
    rw [le_max_iff, ih, List.exists_mem_cons_iff]

/-- More findings make no less of a risk. -/
theorem ofFindings_mono {fs gs : List Finding} (h : fs ⊆ gs) : ofFindings fs ≤ ofFindings gs := by
  by_cases hlow : ofFindings fs = low
  · rw [hlow]
    exact low_le _
  · obtain ⟨f, hf, hle⟩ := (le_ofFindings_iff hlow).mp (le_refl (ofFindings fs))
    exact (le_ofFindings_iff hlow).mpr ⟨f, h hf, hle⟩

/-- Findings put together make the higher of two risks. -/
theorem ofFindings_append (fs gs : List Finding) :
    ofFindings (fs ++ gs) = max (ofFindings fs) (ofFindings gs) := by
  induction fs with
  | nil => exact (max_eq_right (low_le _)).symm
  | cons f fs ih =>
    show max f.risk (ofFindings (fs ++ gs)) = max (max f.risk (ofFindings fs)) _
    rw [ih, max_assoc]

end Risk

/-- **The risk of a file is the word for its gravest finding.** -/
theorem riskLevel_eq (fs : List Finding) : riskLevel fs = (Risk.ofFindings fs).text := by
  have hcritical : ((fs.filter Finding.isSecurity).any fun f =>
      criticalRules.any f.isOf && f.severity.equalsText "error") = true ↔
      .critical ≤ Risk.ofFindings fs := by
    rw [Risk.le_ofFindings_iff (by decide), List.any_filter, List.any_eq_true]
    simp only [Finding.critical_le_risk_iff]
  have hhigh : ((fs.filter Finding.isSecurity).any fun f => f.severity.equalsText "error") = true ↔
      .high ≤ Risk.ofFindings fs := by
    rw [Risk.le_ofFindings_iff (by decide), List.any_filter, List.any_eq_true]
    simp only [Finding.high_le_risk_iff]
  have hmedium : (!(fs.filter Finding.isSecurity).isEmpty ||
      fs.any fun f => f.severity.equalsText "warning") = true ↔ .medium ≤ Risk.ofFindings fs := by
    rw [Risk.le_ofFindings_iff (by decide)]
    simp only [Finding.medium_le_risk_iff, Bool.or_eq_true, and_or_left, exists_or]
    rw [List.any_eq_true]
    refine or_congr_left ?_
    rw [Bool.not_eq_true', List.isEmpty_eq_false_iff_exists_mem]
    simp only [List.mem_filter]
  unfold riskLevel
  dsimp only
  simp only [hcritical, hhigh, hmedium]
  cases Risk.ofFindings fs <;> decide

/-! ### Score -/

/-- What is asked of a table without repeated keys under different keys adds up to what stands under
those among them that it holds. -/
theorem Assoc.sum_getD_eq {κ : Type} [DecidableEq κ] {t : Assoc κ Int} (ht : (keys t).Nodup)
    {ids : List κ} (hids : ids.Nodup) :
    (ids.map fun id => (get? id t).getD 0).sum =
      ((t.filter fun p => decide (p.1 ∈ ids)).map Prod.snd).sum := by
  induction t with
  | nil => simp
  | cons p t ih =>
    obtain ⟨key, v⟩ := p
    obtain ⟨hnew, hrest⟩ := List.nodup_cons.mp ht
    have hnone : get? key t = none := by
      rw [← Option.not_isSome_iff_eq_none]
      exact fun h => hnew ((has_iff_mem_keys key t).mp h)
    have hsplit : ∀ id, (get? id ((key, v) :: t)).getD 0 =
        (if id = key then v else 0) + (get? id t).getD 0 := by
      intro id
      rw [get?]
      by_cases h : key = id
      · subst h
        simp [hnone]
      · simp [h, Ne.symm h]
    have hown : (ids.map fun id => if id = key then v else 0).sum = if key ∈ ids then v else 0 := by
      rw [List.sum_map_eq_nsmul_single key _ fun id hne _ => if_neg hne, if_pos rfl]
      split_ifs with hmem
      · rw [List.count_eq_one_of_mem hids hmem, one_nsmul]
      · rw [List.count_eq_zero_of_not_mem hmem, zero_nsmul]
    simp only [hsplit]
    rw [List.sum_map_add, ih hrest, hown, List.filter_cons]
    split_ifs with hmem <;> simp_all

/-- A finding is of the rule its identifier names. -/
theorem Finding.isOf_iff {f : Finding} {id : String} :
    f.isOf id = true ↔ f.ruleId.text? = some id := by
  unfold isOf Datum.equalsText Datum.text?
  cases f.ruleId <;> simp

/-- What the findings in a file cost: the penalty of each content rule that found something. -/
def findingCost (rules : List Rule) (fs : List Finding) : Int :=
  (((rules.filter Rule.isContent).filter fun r => fs.any fun f => f.isOf r.id).map fun r =>
    r.info.penalty).sum

section

variable {rules : List Rule}

/-- The penalties are those of the content rules. -/
theorem penalties_eq (hids : ((rules.filter Rule.isContent).map Rule.id).Nodup) :
    penalties rules = (rules.filter Rule.isContent).map fun r => (r.id, r.info.penalty) := by
  apply Assoc.ofPairs_of_nodup
  rw [Assoc.keys, List.map_map]
  exact hids

/-- **The score of a file loses the penalty of each content rule that found something, once.** -/
theorem fileScore_eq (hids : ((rules.filter Rule.isContent).map Rule.id).Nodup) (k : LineKinds)
    (complexity : Nat) (fs : List Finding) : fileScore k complexity rules fs = Engine.clampScore
      (100 - commentCost k - complexityCost complexity - findingCost rules fs) := by
  have hkeys : (Assoc.keys (penalties rules)).Nodup := by
    rw [penalties_eq hids, Assoc.keys, List.map_map]
    exact hids
  have hcost : ((Text.distinct (fs.filterMap fun f => f.ruleId.text?)).map fun id =>
      (Assoc.get? id (penalties rules)).getD 0).sum = findingCost rules fs := by
    rw [Assoc.sum_getD_eq hkeys (Text.nodup_distinct _), penalties_eq hids, List.filter_map,
      List.map_map]
    refine congrArg (fun rs : List Rule => (rs.map fun r => r.info.penalty).sum) ?_
    refine List.filter_congr fun r _ => ?_
    rw [Bool.eq_iff_iff, List.any_eq_true]
    simp only [Function.comp_apply, decide_eq_true_eq, Text.mem_distinct, List.mem_filterMap,
      Finding.isOf_iff]
  unfold fileScore
  dsimp only
  rw [hcost]

/-- More findings cost no less. -/
theorem findingCost_mono (hpenalties : ∀ r ∈ rules, r.isContent = true → 0 ≤ r.info.penalty)
    {fs gs : List Finding} (h : fs ⊆ gs) : findingCost rules fs ≤ findingCost rules gs := by
  have hsublist : List.Sublist
      ((rules.filter Rule.isContent).filter fun r => fs.any fun f => f.isOf r.id)
      ((rules.filter Rule.isContent).filter fun r => gs.any fun f => f.isOf r.id) := by
    apply List.monotone_filter_right
    intro r hr
    obtain ⟨f, hf, hof⟩ := List.any_eq_true.mp hr
    exact List.any_eq_true.mpr ⟨f, h hf, hof⟩
  apply (hsublist.map fun r => r.info.penalty).sum_le_sum
  intro n hn
  obtain ⟨r, hr, rfl⟩ := List.mem_map.mp hn
  obtain ⟨hmem, hcontent⟩ := List.mem_filter.mp (List.mem_filter.mp hr).1
  exact hpenalties r hmem hcontent

/-- A score is between 0 and 100. -/
theorem Engine.clampScore_bounds (n : Int) : 0 ≤ clampScore n ∧ clampScore n ≤ 100 := by
  unfold clampScore
  omega

/-- More findings give no better a score. -/
theorem fileScore_antitone (hids : ((rules.filter Rule.isContent).map Rule.id).Nodup)
    (hpenalties : ∀ r ∈ rules, r.isContent = true → 0 ≤ r.info.penalty) (k : LineKinds)
    (complexity : Nat) {fs gs : List Finding} (h : fs ⊆ gs) :
    fileScore k complexity rules gs ≤ fileScore k complexity rules fs := by
  have hcost := findingCost_mono hpenalties h
  rw [fileScore_eq hids, fileScore_eq hids]
  apply Engine.clampScore_mono
  omega

end

/-! ### Both -/

/-- **More findings never make a file look better**, in whatever order they come and however often
each of them comes. -/
theorem findings_neverImprove {rules : List Rule}
    (hids : ((rules.filter Rule.isContent).map Rule.id).Nodup)
    (hpenalties : ∀ r ∈ rules, r.isContent = true → 0 ≤ r.info.penalty) (k : LineKinds)
    (complexity : Nat) (fs gs : List Finding) :
    (riskLevel fs = (Risk.ofFindings fs).text ∧
      fileScore k complexity rules fs = Engine.clampScore
        (100 - commentCost k - complexityCost complexity - findingCost rules fs) ∧
      0 ≤ fileScore k complexity rules fs ∧ fileScore k complexity rules fs ≤ 100) ∧
    (fs ⊆ gs → Risk.ofFindings fs ≤ Risk.ofFindings gs ∧
      fileScore k complexity rules gs ≤ fileScore k complexity rules fs) ∧
    riskLevel (fs ++ gs) = (max (Risk.ofFindings fs) (Risk.ofFindings gs)).text ∧
    ((∀ f, f ∈ fs ↔ f ∈ gs) → riskLevel fs = riskLevel gs ∧
      fileScore k complexity rules fs = fileScore k complexity rules gs) := by
  refine ⟨⟨riskLevel_eq fs, fileScore_eq hids k complexity fs, ?_⟩, ?_, ?_, ?_⟩
  · exact Engine.clampScore_bounds _
  · intro h
    exact ⟨Risk.ofFindings_mono h, fileScore_antitone hids hpenalties k complexity h⟩
  · rw [riskLevel_eq, Risk.ofFindings_append]
  · intro hsame
    have hsub : fs ⊆ gs := fun f hf => (hsame f).mp hf
    have hsub' : gs ⊆ fs := fun f hf => (hsame f).mpr hf
    constructor
    · rw [riskLevel_eq, riskLevel_eq,
        le_antisymm (Risk.ofFindings_mono hsub) (Risk.ofFindings_mono hsub')]
    · exact le_antisymm (fileScore_antitone hids hpenalties k complexity hsub')
        (fileScore_antitone hids hpenalties k complexity hsub)

/-- A file with a warning and a query put together from texts: with the warning alone it is of
medium risk, and the query makes the risk critical; a finding of a rule that is not about files
costs nothing. -/
theorem findings_neverImprove_query :
    let long : Rule := .content ⟨"oversized-file", "quality", "warning", 10, "A", "mend"⟩ [] true
      fun _ => .clear
    let query : Rule := .content ⟨"sql-injection", "security", "error", 25, "B", "mend"⟩ [] true
      fun _ => .clear
    let stray : RuleInfo := ⟨"stray", "performance", "info", 90, "C", "mend"⟩
    let found (i : RuleInfo) : Finding := i.finding ⟨none, some "a.py", some 1⟩
    let rules := [long, .project stray fun _ => none, query]
    let before := [found long.info]
    let after := [found stray, found query.info, found long.info, found stray]
    let score := fileScore ⟨10, 7, 2, 1⟩ 21 rules
    ((rules.filter Rule.isContent).map Rule.id).Nodup ∧
      (∀ r ∈ rules, r.isContent = true → 0 ≤ r.info.penalty) ∧ before ⊆ after ∧
      riskLevel before = "medium" ∧ riskLevel after = "critical" ∧ score before = 75 ∧
      score after = 50 ∧ Risk.ofFindings before ≤ Risk.ofFindings after ∧
      score after ≤ score before := by
  intro long query stray found rules before after score
  have hids : ((rules.filter Rule.isContent).map Rule.id).Nodup := by decide
  have hpenalties : ∀ r ∈ rules, r.isContent = true → 0 ≤ r.info.penalty := by decide
  have hsub : before ⊆ after := by simp [before, after]
  obtain ⟨⟨hrisk, hscore, -⟩, hworse, -⟩ :=
    findings_neverImprove hids hpenalties ⟨10, 7, 2, 1⟩ 21 before after
  obtain ⟨⟨hrisk', hscore', -⟩, -⟩ :=
    findings_neverImprove hids hpenalties ⟨10, 7, 2, 1⟩ 21 after before
  exact ⟨hids, hpenalties, hsub, hrisk.trans (by decide), hrisk'.trans (by decide),
    hscore.trans (by decide), hscore'.trans (by decide), hworse hsub⟩

end ProjectSurvey
