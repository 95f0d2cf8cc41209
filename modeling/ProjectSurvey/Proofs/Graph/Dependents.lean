import ProjectSurvey.Proofs.Graph.Separation

/-!
# Direct and transitive dependents

The impact of a change tells which files refer to a file and which depend on it, directly or not.
The first are read off the references and may hold the file itself, the second are found by a search
that leaves its start out. **Every file that refers to another one depends on it, so the two lists
go together in every graph but for the file itself** (`impact_dependentsAgree`): they agree as they
should exactly if the file does not refer to itself. In a graph that was built from files it does so
if one of its references means the file that holds it (`refers_self_build_iff`), and then the risk
may rest on fewer files than are listed as referring to it (`impact_ownDependent`).
-/

namespace ProjectSurvey

namespace Network

variable {n : Network} {p q : String}

/-! ### The two lists of one file -/

/-- Whoever reaches a file from elsewhere does so by way of one that refers to it from elsewhere. -/
theorem exists_refers_of_transGen (h : Relation.TransGen n.Refers q p) (hne : q ≠ p) :
    ∃ r, r ≠ p ∧ n.Refers r p := by
  induction h using Relation.TransGen.head_induction_on with
  | single hqp => exact ⟨_, hne, hqp⟩
  | @head a c hac _ ih =>
    by_cases hc : c = p
    · exact ⟨a, hne, hc ▸ hac⟩
    · exact ih hc

/-- What refers to a file from elsewhere depends on it. -/
theorem mem_reachedBy_of_mem_predecessors (hq : q ∈ n.predecessors p) (hne : q ≠ p) :
    q ∈ n.reachedBy n.predecessors p :=
  (n.mem_reachedBy_predecessors p q).mpr ⟨hne, .single (n.mem_predecessors.mp hq)⟩

/-- No file is among those that reach it: the search leaves its start out. -/
theorem not_mem_reachedBy_self : p ∉ n.reachedBy n.predecessors p :=
  fun h => ((n.mem_reachedBy_predecessors p p).mp h).1 rfl

/-- Nothing depends on a file exactly if at most the file itself refers to it. -/
theorem reachedBy_eq_nil_iff :
    n.reachedBy n.predecessors p = [] ↔ ∀ q ∈ n.predecessors p, q = p := by
  constructor
  · intro hnone q hq
    by_contra hne
    have hmem := mem_reachedBy_of_mem_predecessors hq hne
    simp [hnone] at hmem
  · intro hown
    rw [List.eq_nil_iff_forall_not_mem]
    intro q hq
    obtain ⟨hne, hreaches⟩ := (n.mem_reachedBy_predecessors p q).mp hq
    obtain ⟨r, hr, hrefers⟩ := exists_refers_of_transGen hreaches hne
    exact hr (hown r (n.mem_predecessors.mpr hrefers))

/-- At most the file itself refers to it without being counted as depending on it. -/
theorem length_predecessors_le :
    (n.predecessors p).length ≤ (n.reachedBy n.predecessors p).length + 1 := by
  have hsub : n.predecessors p ⊆ p :: n.reachedBy n.predecessors p := by
    intro q hq
    by_cases hne : q = p
    · exact hne ▸ List.mem_cons_self
    · exact List.mem_cons_of_mem p (mem_reachedBy_of_mem_predecessors hq hne)
  exact (List.subperm_of_subset (n.nodup_predecessors p) hsub).length_le

/-- All but the file itself of those that refer to it are counted as depending on it. -/
theorem length_filter_predecessors_le :
    ((n.predecessors p).filter (· ≠ p)).length ≤ (n.reachedBy n.predecessors p).length := by
  have hsub : (n.predecessors p).filter (· ≠ p) ⊆ n.reachedBy n.predecessors p := by
    intro q hq
    obtain ⟨hq, hne⟩ := List.mem_filter.mp hq
    exact mem_reachedBy_of_mem_predecessors hq (of_decide_eq_true hne)
  exact (List.subperm_of_subset ((n.nodup_predecessors p).filter _) hsub).length_le

/-- More files refer to a file than depend on it exactly if it refers to itself and whatever depends
on it refers to it. -/
theorem length_reachedBy_lt_iff :
    (n.reachedBy n.predecessors p).length < (n.predecessors p).length ↔
      n.Refers p p ∧ ∀ q ∈ n.reachedBy n.predecessors p, n.Refers q p := by
  have hnodup : (n.reachedBy n.predecessors p).Nodup := (n.pairwise_reachedBy p).nodup
  constructor
  · intro hlt
    have hown : p ∈ n.predecessors p := by
      by_contra hnot
      have hall : (n.predecessors p).filter (· ≠ p) = n.predecessors p :=
        List.filter_eq_self.mpr fun q hq => decide_eq_true fun heq => hnot (heq ▸ hq)
      have hle := n.length_filter_predecessors_le (p := p)
      rw [hall] at hle
      omega
    refine ⟨n.mem_predecessors.mp hown, ?_⟩
    -- without the file itself the two lists have the same length, so they have the same members
    have hsub : (n.predecessors p).erase p ⊆ n.reachedBy n.predecessors p := by
      intro q hq
      rw [(n.nodup_predecessors p).mem_erase_iff] at hq
      exact mem_reachedBy_of_mem_predecessors hq.2 hq.1
    have hperm := (List.subperm_of_subset ((n.nodup_predecessors p).erase p) hsub).perm_of_length_le
      (by rw [List.length_erase_of_mem hown]; omega)
    intro q hq
    exact n.mem_predecessors.mp (List.mem_of_mem_erase (hperm.mem_iff.mpr hq))
  · rintro ⟨hown, hdirect⟩
    have hsub : p :: n.reachedBy n.predecessors p ⊆ n.predecessors p := by
      intro q hq
      rcases List.mem_cons.mp hq with rfl | hq
      · exact n.mem_predecessors.mpr hown
      · exact n.mem_predecessors.mpr (hdirect q hq)
    exact (List.subperm_of_subset (hnodup.cons n.not_mem_reachedBy_self) hsub).length_le

/-- A change on which three files or more depend is of some risk, one of ten or more of a high
one. -/
theorem Impact.risk_of_le (i : Impact) {count : Nat} (h : count ≤ i.transitiveDependents.length) :
    (10 ≤ count → i.risk = "high") ∧ (3 ≤ count → i.risk ≠ "low") := by
  unfold Impact.risk
  constructor
  · intro hten
    rw [if_pos (hten.trans h)]
  · intro hthree
    dsimp only
    split
    · decide
    · rw [if_pos (hthree.trans h)]
      decide

end Network

namespace Graph

/-! ### The impact of a change -/

/-- How the direct and the transitive dependents in the impact of a file go together. -/
structure DependentsAgree (g : Graph) (i : Network.Impact) : Prop where
  /-- The file itself is a direct dependent exactly if it refers to itself. -/
  own : i.path ∈ i.directDependents ↔ g.Refers i.path i.path
  /-- It never is a transitive one. -/
  notOwn : i.path ∉ i.transitiveDependents
  /-- Every other direct dependent is a transitive one. -/
  others : ∀ q ∈ i.directDependents, q ≠ i.path → q ∈ i.transitiveDependents
  /-- There is no transitive dependent exactly if no other file is a direct one. -/
  empty : i.transitiveDependents = [] ↔ ∀ q ∈ i.directDependents, q = i.path
  /-- There is one direct dependent more than transitive ones, at the most. -/
  atMostOneMore : i.directDependents.length ≤ i.transitiveDependents.length + 1
  /-- There is one more exactly if the file refers to itself and all its dependents are direct. -/
  oneMore : i.transitiveDependents.length < i.directDependents.length ↔
    g.Refers i.path i.path ∧ ∀ q ∈ i.transitiveDependents, g.Refers q i.path
  /-- The risk is as high as the direct dependents other than the file itself make it. -/
  risk : let count := (i.directDependents.filter (· ≠ i.path)).length
    (10 ≤ count → i.risk = "high") ∧ (3 ≤ count → i.risk ≠ "low")
  /-- The direct dependents are among the transitive ones, the two are empty together and the risk
  rests on no fewer files than are direct dependents, exactly if the file does not refer to
  itself. -/
  within : (i.directDependents ⊆ i.transitiveDependents ∧
      (i.directDependents = [] ↔ i.transitiveDependents = []) ∧
      i.directDependents.length ≤ i.transitiveDependents.length) ↔ ¬ g.Refers i.path i.path

/-- **The direct dependents of a file are transitive ones, but for the file itself.** -/
theorem impact_dependentsAgree (g : Graph) {p : String} (hp : g.IsInternal p) :
    ∃ i, g.network.impact p = .ok i ∧ i.path = p ∧ g.DependentsAgree i := by
  have hfile : p ∈ g.network.files := (g.mem_files_network p).mpr hp
  refine ⟨_, g.network.impact_of_mem hfile, rfl, ?_⟩
  have hdirect : ∀ q, q ∈ Text.sorted (g.network.predecessors p) ↔ g.Refers q p := by
    intro q
    rw [Text.mem_sorted, g.network.mem_predecessors, refers_network]
  have hpredecessors : ∀ q ∈ Text.sorted (g.network.predecessors p), q ∈ g.network.predecessors p :=
    fun q hq => Text.mem_sorted.mp hq
  have hothers : ∀ q ∈ Text.sorted (g.network.predecessors p), q ≠ p →
      q ∈ g.network.reachedBy g.network.predecessors p :=
    fun q hq hne => Network.mem_reachedBy_of_mem_predecessors (hpredecessors q hq) hne
  have hlength : (Text.sorted (g.network.predecessors p)).length =
      (g.network.predecessors p).length := List.length_mergeSort _
  have hone := g.network.length_reachedBy_lt_iff (p := p)
  rw [← hlength, refers_network] at hone
  constructor
  case own => exact hdirect p
  case notOwn => exact g.network.not_mem_reachedBy_self
  case others => exact hothers
  case empty =>
    dsimp only
    rw [Network.reachedBy_eq_nil_iff]
    simp only [Text.mem_sorted]
  case atMostOneMore => exact hlength ▸ g.network.length_predecessors_le
  case oneMore => exact hone
  case risk =>
    apply Network.Impact.risk_of_le
    have hperm := (List.mergeSort_perm (g.network.predecessors p)
      fun a b => decide (a ≤ b)).filter (· ≠ p)
    exact hperm.length_eq ▸ g.network.length_filter_predecessors_le
  case within =>
    dsimp only
    constructor
    · rintro ⟨hsub, -⟩ hown
      exact g.network.not_mem_reachedBy_self (hsub ((hdirect p).mpr hown))
    · intro hnot
      have hne : ∀ q ∈ Text.sorted (g.network.predecessors p), q ≠ p :=
        fun q hq heq => hnot (heq ▸ (hdirect q).mp hq)
      refine ⟨fun q hq => hothers q hq (hne q hq), ?_, ?_⟩
      · rw [Network.reachedBy_eq_nil_iff, List.eq_nil_iff_forall_not_mem]
        simp only [Text.mem_sorted] at hne ⊢
        exact ⟨fun h q hq => absurd hq (h q), fun h q hq => hne q hq (h q hq)⟩
      · by_contra hmore
        exact hnot (hone.mp (not_le.mp hmore)).1

/-! ### Files that refer to themselves -/

variable {t : Tables} {records : List FileRecord} {evidence : Assoc String Evidence}
  {manifests : Manifests}

/-- **A source file refers to itself exactly if one of its references means the file that holds
it.** -/
theorem refers_self_build_iff (hpaths : (records.map FileRecord.path).Nodup) {r : FileRecord}
    (hr : r ∈ sourcesOf t records) :
    (build t records evidence manifests).Refers r.path r.path ↔
      ∃ reference ∈ referencesOf evidence r,
        Means (scopeOf t records manifests) r reference r.path false := by
  constructor
  · rintro ⟨-, -, e, he, hsource, htarget, hresolved⟩
    have hown : e ∈ (build t records evidence manifests).edges.filter
        (fun e => e.source == r.path) := List.mem_filter.mpr ⟨he, beq_iff_eq.mpr hsource⟩
    rw [filter_source_edges hpaths hr] at hown
    obtain ⟨-, hfor, before, after, hreferences, -⟩ := mem_edgesFrom hown
    have hmeans := ((edgeFor?_eq_some_iff _ r _ e).mp hfor).1
    rw [htarget, hresolved] at hmeans
    exact ⟨e.reference, by simp [hreferences], hmeans⟩
  · rintro ⟨reference, hmem, hmeans⟩
    obtain ⟨e, he, hsource, htarget, hresolved⟩ := exists_edge_of_means hr hmem hmeans
    have hinternal : (build t records evidence manifests).IsInternal r.path :=
      (isInternal_build_iff hpaths r.path).mpr (.inl ⟨r, hr, rfl⟩)
    exact ⟨hinternal, hinternal, e, he, hsource, htarget, hresolved⟩

/-- A script that refers to itself. -/
def ownRecord : FileRecord := ⟨"a.js", 13, ".js", ⟨"javascript", none, []⟩, .ofInt 0, 0⟩

/-- What is found in the script. -/
def ownEvidence : Assoc String Evidence := [("a.js", ⟨"a.js", some 1, ["./a"], [], []⟩)]

/-- The record of the example is a source. -/
theorem ownRecord_mem_sources : ownRecord ∈ sourcesOf .default [ownRecord] := by decide

/-- It is the only one, so the paths are distinct. -/
theorem nodup_ownRecord : ([ownRecord].map FileRecord.path).Nodup := List.nodup_singleton _

/-- Its path is the only internal node. -/
theorem isInternal_ownRecord_iff (path : String) :
    (build .default [ownRecord] ownEvidence []).IsInternal path ↔ path = "a.js" := by
  rw [isInternal_build_iff nodup_ownRecord]
  constructor
  · rintro (⟨r, hr, rfl⟩ | ⟨hpath, -⟩)
    · rw [List.mem_singleton.mp ((mem_sourcesOf _ _ r).mp hr).1]
      rfl
    · exact List.mem_singleton.mp hpath
  · rintro rfl
    exact .inl ⟨ownRecord, ownRecord_mem_sources, rfl⟩

/-- The file refers to itself. -/
theorem refers_ownRecord : (build .default [ownRecord] ownEvidence []).Refers "a.js" "a.js" := by
  have hbase : Reference.basePath? ownRecord.path "./a" = some "a" := by decide
  have hfirst : FirstKnown (scopeOf .default [ownRecord] []) ownRecord "a" "a.js" :=
    ⟨["a"], _, rfl, by decide, by decide⟩
  exact (refers_self_build_iff nodup_ownRecord ownRecord_mem_sources).mpr
    ⟨"./a", by decide, .path (.inl (by decide)) hbase hfirst⟩

/-- The two lists of the script that refers to itself. -/
theorem impact_dependentsAgree_ownRecord :
    (build .default [ownRecord] ownEvidence []).IsInternal "a.js" ∧
      ∃ i, (build .default [ownRecord] ownEvidence []).network.impact "a.js" = .ok i ∧
        i.path = "a.js" ∧ (build .default [ownRecord] ownEvidence []).DependentsAgree i :=
  have hinternal := (isInternal_ownRecord_iff "a.js").mpr rfl
  ⟨hinternal, impact_dependentsAgree _ hinternal⟩

/-- The script that refers to itself is its own direct dependent, and nothing depends on it. -/
theorem impact_ownDependent :
    (build .default [ownRecord] ownEvidence []).IsInternal "a.js" ∧
      ∃ i, (build .default [ownRecord] ownEvidence []).network.impact "a.js" = .ok i ∧
        i.directDependents = ["a.js"] ∧ i.transitiveDependents = [] := by
  have hinternal := (isInternal_ownRecord_iff "a.js").mpr rfl
  have hrefers : ∀ q, (build .default [ownRecord] ownEvidence []).network.Refers q "a.js" ↔
      q = "a.js" := by
    intro q
    rw [refers_network]
    constructor
    · exact fun h => (isInternal_ownRecord_iff q).mp h.1
    · rintro rfl
      exact refers_ownRecord
  have hfile := (mem_files_network _ _).mpr hinternal
  refine ⟨hinternal, _, Network.impact_of_mem _ hfile, ?_, ?_⟩
  · refine (Text.pairwise_sorted_lt (Network.nodup_predecessors _ "a.js")).eq_of_mem_iff
      (List.pairwise_singleton _ _) fun q => ?_
    rw [Text.mem_sorted, Network.mem_predecessors, hrefers, List.mem_singleton]
  · rw [Network.reachedBy_eq_nil_iff]
    exact fun q hq => (hrefers q).mp ((Network.mem_predecessors _).mp hq)

end Graph

end ProjectSurvey
